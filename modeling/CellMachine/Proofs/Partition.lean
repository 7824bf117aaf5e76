import CellMachine.Proofs.Sweep

/-!
# Listings as partitions

A listing shows every cell of a memory once. Its statements are segments of the memory, of which
each begins where the one before ends (`Adjoin`); this is what one statement after the other keeps
(`adjoin_statementsFrom`), and all that is said about the addresses of a listing follows from it:
they increase, no segment reaches past the end, and the segments together are the memory.

How a segment is shown tells how long it is. A text with operands is one of several cells, and the
other texts, `hlt` and `.dat` with a value, are of one cell (`withOperands_statementText_iff`).
-/

set_option autoImplicit false

namespace CellMachine.Listing

/-! ## Segments -/

/-- A statement of a listing: the cells from `start` up to `stop`, and the text for them. -/
structure Segment where
  start : Nat
  stop : Nat
  text : String
deriving DecidableEq, Inhabited

/-- The addresses of a segment. -/
def Segment.addresses (s : Segment) : List Nat :=
  List.range' s.start (s.stop - s.start)

/-- The segment of the statement at `pc`. -/
def segmentAt (m : Memory) (pc : Nat) : Segment :=
  ⟨pc, pc + statementSize m pc, statementText m pc⟩

/-- The segments of a listing. -/
def segments (m : Memory) : List Segment :=
  (statements m).map (segmentAt m)

/-- Segments from an address to another, each beginning where the one before ends. -/
inductive Adjoin : Nat → List Segment → Nat → Prop where
  | nil (pc : Nat) : Adjoin pc [] pc
  | cons {s : Segment} {rest : List Segment} {stop : Nat} : s.start < s.stop →
      Adjoin s.stop rest stop → Adjoin s.start (s :: rest) stop

section Adjoin

variable {start stop : Nat} {ss : List Segment}

theorem Adjoin.le (h : Adjoin start ss stop) : start ≤ stop := by
  induction h with
  | nil => exact Nat.le_refl _
  | cons hlt _ ih => exact Nat.le_trans (Nat.le_of_lt hlt) ih

theorem Adjoin.bounds (h : Adjoin start ss stop) {s : Segment} (hs : s ∈ ss) :
    start ≤ s.start ∧ s.start < s.stop ∧ s.stop ≤ stop := by
  induction h with
  | nil => cases hs
  | cons hlt hrest ih =>
    rcases List.mem_cons.1 hs with rfl | hs
    · exact ⟨Nat.le_refl _, hlt, hrest.le⟩
    · obtain ⟨hle, hbounds⟩ := ih hs
      exact ⟨Nat.le_trans (Nat.le_of_lt hlt) hle, hbounds⟩

/-- The addresses increase. -/
theorem Adjoin.increasing (h : Adjoin start ss stop) :
    ss.Pairwise fun s s' => s.start < s'.start := by
  induction h with
  | nil => exact List.Pairwise.nil
  | cons hlt hrest ih =>
    apply List.Pairwise.cons _ ih
    intro s' hs'
    exact Nat.lt_of_lt_of_le hlt (hrest.bounds hs').1

/-- Together the segments have every address once. -/
theorem Adjoin.addresses_eq (h : Adjoin start ss stop) :
    ss.flatMap Segment.addresses = List.range' start (stop - start) := by
  induction h with
  | nil pc => rw [Nat.sub_self]; rfl
  | @cons s rest stop hlt hrest ih =>
    have hle := hrest.le
    -- the range up to the end splits where the first segment ends
    have hfirst : s.stop = s.start + (s.stop - s.start) := by omega
    have hsum : stop - s.start = s.stop - s.start + (stop - s.stop) := by omega
    rw [List.flatMap_cons, ih, Segment.addresses, hsum, ← List.range'_append_1, ← hfirst]

end Adjoin

variable {m : Memory} {pc : Nat}

/-- From any address on, the statements adjoin up to the end of the memory. -/
theorem adjoin_statementsFrom (h : pc ≤ m.size) :
    Adjoin pc ((statementsFrom m pc).map (segmentAt m)) m.size := by
  fun_induction statementsFrom m pc with
  | case1 pc hlt ih =>
    have hnonempty : (segmentAt m pc).start < (segmentAt m pc).stop :=
      Nat.lt_add_of_pos_right (statementSize_pos m pc)
    exact .cons hnonempty (ih (add_statementSize_le hlt))
  | case2 pc hge =>
    obtain rfl : pc = m.size := by omega
    exact .nil _

theorem adjoin_segments (m : Memory) : Adjoin 0 (segments m) m.size :=
  adjoin_statementsFrom (Nat.zero_le _)

/-! ## Texts -/

/-- The text of an operation with at least one operand. -/
def WithOperands (text : String) : Prop :=
  ∃ (op : Opcode) (operands : List (Bool × Cell)), operands ≠ [] ∧
    text = op.name ++ String.join (operands.map fun o => parameterText o.1 o.2)

/-- A text with operands begins with a letter, and has a blank in it. -/
theorem WithOperands.shape {text : String} (h : WithOperands text) :
    text.toList.head? ≠ some '.' ∧ ' ' ∈ text.toList := by
  obtain ⟨op, operands, hne, rfl⟩ := h
  constructor
  · cases op <;> simp [Opcode.name]
  · cases operands with
    | nil => exact absurd rfl hne
    | cons o rest => simp [parameterText]

/-- A statement of one cell is the operation without operands, or data. -/
theorem statementText_of_size_one (h : statementSize m pc = 1) :
    statementText m pc = "hlt" ∨
      statementText m pc = ".dat " ++ Numeral.writeCell (m.cells.getD pc 0) := by
  cases hs : shown? m pc with
  | none => exact Or.inr (statementText_of_data hs)
  | some ins =>
    have harity : ins.op.arity = 0 := by
      simpa [statementSize, hs] using h
    have hhalt : ins.op = .halt := by
      cases hop : ins.op <;> simp [hop, Opcode.arity] at harity
      rfl
    rw [statementText_of_shown hs, hhalt]
    exact Or.inl rfl

/-- A statement is shown with operands exactly if it takes more than one cell. -/
theorem withOperands_statementText_iff :
    WithOperands (statementText m pc) ↔ 1 < statementSize m pc := by
  constructor
  · intro h
    obtain ⟨hhead, hblank⟩ := h.shape
    by_contra hnot
    have hone : statementSize m pc = 1 := by
      have hpos := statementSize_pos m pc
      omega
    -- neither text of a single cell has the shape of one with operands
    rcases statementText_of_size_one hone with htext | htext
    · rw [htext] at hblank
      exact absurd hblank (by decide)
    · rw [htext] at hhead
      exact hhead (by simp)
  · intro h
    cases hs : shown? m pc with
    | none => simp [statementSize, hs] at h
    | some ins =>
      have harity : 0 < ins.op.arity := by
        simpa [statementSize, hs] using h
      refine ⟨ins.op, (List.range ins.op.arity).map fun k =>
        (decide (ins.mode k = .immediate), m.cells.getD (pc + 1 + k) 0), ?_, ?_⟩
      · simpa using Nat.ne_of_gt harity
      · rw [statementText_of_shown hs, List.map_map]
        rfl

/-! ## Lines -/

/-- The address of a segment in a listing that starts at `base`, on the right of its column. -/
def Segment.column (base : Int64) (s : Segment) : String :=
  alignRight 5 (Numeral.writeCell (base + Int64.ofNat s.start))

/-- A line of a listing behind the column of addresses. -/
def Segment.body (s : Segment) : String :=
  "  " ++ s.text ++ "\n"

/-- The column has only blanks before the address, and at least five characters. -/
theorem Segment.column_eq (base : Int64) (s : Segment) :
    ∃ blanks, s.column base = String.ofList (List.replicate blanks ' ') ++
        Numeral.writeCell (base + Int64.ofNat s.start) ∧
      (s.column base).length = max 5 (Numeral.writeCell (base + Int64.ofNat s.start)).length := by
  refine ⟨_, rfl, ?_⟩
  rw [column, alignRight, String.length_append, String.length_ofList, List.length_replicate]
  omega

theorem join_linePieces (m : Memory) (base : Int64) (addresses : List Nat) :
    String.join (addresses.flatMap (linePieces m base)) =
      String.join ((addresses.map (segmentAt m)).map fun s => s.column base ++ s.body) := by
  induction addresses with
  | nil => rfl
  | cons pc rest ih =>
    have hline : String.join (linePieces m base pc) =
        (segmentAt m pc).column base ++ (segmentAt m pc).body := by
      rw [linePieces, margin, List.cons_append, String.join_cons, String.join_append,
        Segment.column, Segment.body, String.append_assoc, String.append_assoc]
      rfl
    rw [List.flatMap_cons, String.join_append, ih, hline, List.map_cons, List.map_cons,
      String.join_cons]

/-- The segments of a memory adjoin from its first cell to its last, so their addresses increase
and each cell is in one of them. A segment is what writing its statement takes and says. It is
longer than one cell exactly if it is shown with operands, and otherwise it is shown as `hlt` or as
data with the value of its cell. With any base, and on any destination that takes everything, a
listing has one line for each segment, and only the column of the addresses depends on the base. -/
theorem listing_partition (m : Memory) :
    Adjoin 0 (segments m) m.size ∧
    (segments m).Pairwise (fun s s' => s.start < s'.start) ∧
    (segments m).flatMap Segment.addresses = List.range m.size ∧
    (∀ s ∈ segments m, s.start < s.stop ∧ s.stop ≤ m.size ∧
      (∀ sink : Sink, sink.capacity = none →
        writeStatement m s.start sink = (sink.andText s.text, .done s.stop)) ∧
      (s.start + 1 < s.stop ↔ WithOperands s.text) ∧
      (s.stop = s.start + 1 → s.text = "hlt" ∨
        s.text = ".dat " ++ Numeral.writeCell (m.cells.getD s.start 0))) ∧
    ∀ base : Int64,
      (∀ s ∈ segments m, ∃ blanks, s.column base = String.ofList (List.replicate blanks ' ') ++
          Numeral.writeCell (base + Int64.ofNat s.start) ∧
        (s.column base).length = max 5 (Numeral.writeCell (base + Int64.ofNat s.start)).length) ∧
      ∀ sink : Sink, sink.capacity = none →
        write m base sink =
          (sink.andText (String.join ((segments m).map fun s => s.column base ++ s.body)), none) := by
  have hadjoin := adjoin_segments m
  refine ⟨hadjoin, hadjoin.increasing, ?_, ?_, ?_⟩
  · rw [hadjoin.addresses_eq, Nat.sub_zero, List.range_eq_range']
  · intro s hs
    obtain ⟨-, hlt, hle⟩ := hadjoin.bounds hs
    obtain ⟨pc, -, rfl⟩ := List.mem_map.1 hs
    refine ⟨hlt, hle, ?_, ?_, ?_⟩
    · intro sink hsink
      exact writeStatement_of_unbounded hsink (Nat.lt_of_lt_of_le hlt hle)
    · exact Nat.add_lt_add_iff_left.trans withOperands_statementText_iff.symm
    · intro hone
      exact statementText_of_size_one (Nat.add_left_cancel hone)
  · intro base
    refine ⟨fun s _ => s.column_eq base, ?_⟩
    intro sink hsink
    rw [segments, ← join_linePieces, write_eq, Sticky.writeAll_of_unbounded hsink]
    rfl

/-- An output, a stop, and an output without its parameter. -/
theorem listing_truncatedOutput :
    segments ⟨#[104, 5, 99, 4]⟩ = [⟨0, 2, "out #5"⟩, ⟨2, 3, "hlt"⟩, ⟨3, 4, ".dat 4"⟩] ∧
      Sink.unbounded.capacity = none ∧
      write ⟨#[104, 5, 99, 4]⟩ 9223372036854775807 Sink.unbounded =
        (Sink.unbounded.andText ("9223372036854775807  out #5\n" ++
          "-9223372036854775807  hlt\n" ++ "-9223372036854775806  .dat 4\n"), none) ∧
      write ⟨#[104, 5, 99, 4]⟩ 0 Sink.unbounded =
        (Sink.unbounded.andText ("    0  out #5\n" ++ "    2  hlt\n" ++ "    3  .dat 4\n"), none) := by
  have hsegments : segments ⟨#[104, 5, 99, 4]⟩ =
      [⟨0, 2, "out #5"⟩, ⟨2, 3, "hlt"⟩, ⟨3, 4, ".dat 4"⟩] := by
    decide +kernel
  obtain ⟨-, -, -, -, hlines⟩ := listing_partition ⟨#[104, 5, 99, 4]⟩
  refine ⟨hsegments, rfl, ?_, ?_⟩
  · rw [(hlines 9223372036854775807).2 _ rfl, hsegments]
    rfl
  · rw [(hlines 0).2 _ rfl, hsegments]
    rfl

end CellMachine.Listing
