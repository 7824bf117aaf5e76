import CellMachine.Image
import CellMachine.Proofs.Buffering

/-!
# Sinks that run full

A sink with a limit keeps the first bytes of what it is sent (`Sink.filled`), and refuses the
write that goes over the limit. Behind a `Sticky` it is sent nothing more from then on, so in the
end it holds the first bytes of everything that was to be written, and there is an error exactly
if that was too much (`Sticky.write_filled`).

All outputs of the library that are written piece by piece go through a `Sticky`, so what they
leave in a sink does not depend on how they are cut into pieces, nor on where among the pieces
the limit lies (`Memory.output_keeps_front`).

A buffer in front of the sink meets the error later than a `Sticky` does, when it passes on a block
that may hold many writes. After a flush it comes to the same (`Buffered.Fills.flush`).
-/

set_option autoImplicit false

namespace CellMachine

/-! ## The first bytes -/

/-- The first bytes of some, up to a limit. -/
def firstBytes (limit : Nat) (bytes : ByteArray) : ByteArray :=
  bytes.extract 0 (min limit bytes.size)

section FirstBytes

variable {limit : Nat} {bytes : ByteArray}

@[simp] theorem size_firstBytes (limit : Nat) (bytes : ByteArray) :
    (firstBytes limit bytes).size = min limit bytes.size := by
  simp [firstBytes]

theorem firstBytes_of_le (h : bytes.size ≤ limit) : firstBytes limit bytes = bytes := by
  rw [firstBytes, Nat.min_eq_right h, ByteArray.extract_zero_size]

/-- As long as there is room, more bytes stand behind those that are there. -/
theorem firstBytes_append (h : bytes.size ≤ limit) (p : ByteArray) :
    firstBytes limit (bytes ++ p) = bytes ++ firstBytes (limit - bytes.size) p := by
  have hmin : min limit (bytes ++ p).size = bytes.size + min (limit - bytes.size) p.size := by
    rw [ByteArray.size_append]
    omega
  have hall : bytes.extract 0 (bytes.size + min (limit - bytes.size) p.size) = bytes := by
    rw [← Nat.max_eq_left (Nat.le_add_right bytes.size _)]
    exact ByteArray.extract_zero_max_size
  rw [firstBytes, hmin, ByteArray.extract_append, hall, Nat.zero_sub, Nat.add_sub_cancel_left,
    firstBytes]

/-- After that they make no difference. -/
theorem firstBytes_append_of_le (h : limit ≤ bytes.size) (p : ByteArray) :
    firstBytes limit (bytes ++ p) = firstBytes limit bytes := by
  have hmin : min limit (bytes ++ p).size = limit := by
    rw [ByteArray.size_append]
    omega
  rw [firstBytes, hmin, ByteArray.extract_append, Nat.sub_eq_zero_of_le h, Nat.zero_sub,
    ByteArray.extract_same, ByteArray.append_empty, firstBytes, Nat.min_eq_left h]

end FirstBytes

/-! ## Sinks -/

/-- What a sink with a limit has to say about some bytes. -/
def overflow? (limit : Nat) (reason : String) (bytes : ByteArray) : Option WriteError :=
  if bytes.size ≤ limit then none else some (.refused reason)

theorem overflow?_eq_none_iff {limit : Nat} {reason : String} {bytes : ByteArray} :
    overflow? limit reason bytes = none ↔ bytes.size ≤ limit := by
  simp [overflow?]

/-- The sink with a limit that has been sent some bytes. -/
def Sink.filled (limit : Nat) (reason : String) (bytes : ByteArray) : Sink :=
  ⟨some limit, reason, firstBytes limit bytes⟩

theorem Sink.filled_empty (limit : Nat) (reason : String) :
    filled limit reason .empty = .new (some limit) reason := by
  rw [filled, firstBytes_of_le (Nat.zero_le limit)]
  rfl

/-- What comes when too much has been sent already changes neither the sink nor what it says. -/
theorem Sink.filled_append_of_lt {limit : Nat} {bytes : ByteArray} (h : limit < bytes.size)
    (reason : String) (p : ByteArray) :
    filled limit reason (bytes ++ p) = filled limit reason bytes ∧
      overflow? limit reason (bytes ++ p) = overflow? limit reason bytes := by
  have hmore : ¬ (bytes ++ p).size ≤ limit := by
    rw [ByteArray.size_append]
    omega
  constructor
  · rw [filled, firstBytes_append_of_le (Nat.le_of_lt h), filled]
  · rw [overflow?, overflow?, if_neg hmore, if_neg (Nat.not_le.2 h)]

/-- A sink that is not full takes what fits of the bytes that come next. -/
theorem Sink.write_filled {limit : Nat} {bytes : ByteArray} (h : bytes.size ≤ limit)
    (reason : String) (p : ByteArray) :
    Destination.write (filled limit reason bytes) p =
      ⟨filled limit reason (bytes ++ p), min limit (bytes.size + p.size) - bytes.size,
        overflow? limit reason (bytes ++ p)⟩ := by
  show (filled limit reason bytes).write p = _
  by_cases hroom : p.size ≤ limit - bytes.size
  · have hfits : bytes.size + p.size ≤ limit := by omega
    have hall : firstBytes (limit - bytes.size) p = p := firstBytes_of_le hroom
    simp [Sink.write, filled, overflow?, firstBytes_append h, firstBytes_of_le h, hroom, hfits,
      hall]
  · have hover : ¬ bytes.size + p.size ≤ limit := by omega
    have hpart : firstBytes (limit - bytes.size) p = p.extract 0 (limit - bytes.size) := by
      rw [firstBytes, Nat.min_eq_left (by omega)]
    have htaken : min limit (bytes.size + p.size) - bytes.size = limit - bytes.size := by omega
    simp [Sink.write, filled, overflow?, firstBytes_append h, firstBytes_of_le h, hroom, hover,
      hpart, htaken]

/-! ## Writes one after another -/

/-- All bytes of a list, in order. -/
def joinBytes : List ByteArray → ByteArray
  | [] => .empty
  | p :: rest => p ++ joinBytes rest

/-- The number of bytes that writes report to have been taken, in all. -/
def totalTaken : List (Nat × Option WriteError) → Nat
  | [] => 0
  | w :: rest => w.1 + totalTaken rest

namespace Sticky

section Destinations

variable {σ : Type} [Destination σ]

/-- What is reported of writes made one after another, and the destination at the end. -/
def writeEach (s : Sticky σ) : List ByteArray → List (Nat × Option WriteError) × Sticky σ
  | [] => ([], s)
  | p :: rest =>
    let w := s.write p
    ((w.taken, w.error) :: (w.dest.writeEach rest).1, (w.dest.writeEach rest).2)

/-- Once an error is remembered, it is all that is reported. -/
theorem writeEach_of_error {s : Sticky σ} {e : WriteError} (h : s.error = some e)
    (items : List ByteArray) : ∀ w ∈ (s.writeEach items).1, w = (0, some e) := by
  induction items with
  | nil =>
    intro w hw
    cases hw
  | cons p rest ih =>
    intro w hw
    simp only [writeEach, write_of_error h, List.mem_cons] at hw
    rcases hw with rfl | hw
    · rfl
    · exact ih w hw

/-- From the first write that fails on, all report the same error, and those behind it that
nothing was taken. -/
theorem pairwise_writeEach (s : Sticky σ) (items : List ByteArray) :
    (s.writeEach items).1.Pairwise fun w w' => ∀ e, w.2 = some e → w' = (0, some e) := by
  induction items generalizing s with
  | nil => exact List.Pairwise.nil
  | cons p rest ih =>
    apply List.Pairwise.cons
    · intro w' hw' e he
      apply writeEach_of_error _ rest w' hw'
      rw [← error_write]
      exact he
    · exact ih (s.write p).dest

end Destinations

/-! ## Sinks behind a `Sticky` -/

/-- A sink with a limit that has been sent some bytes, with the error met if they were too many. -/
def filled (limit : Nat) (reason : String) (bytes : ByteArray) : Sticky Sink :=
  ⟨.filled limit reason bytes, (overflow? limit reason bytes).map .failed⟩

variable {limit : Nat} {reason : String}

theorem filled_empty (limit : Nat) (reason : String) :
    filled limit reason .empty = .new (.new (some limit) reason) := by
  rw [filled, Sink.filled_empty, overflow?_eq_none_iff.2 (Nat.zero_le limit)]
  rfl

/-- What has been sent is all that matters, also when it was too much already. -/
theorem write_filled (bytes p : ByteArray) :
    (filled limit reason bytes).write p =
      ⟨filled limit reason (bytes ++ p),
        min limit (bytes.size + p.size) - min limit bytes.size,
        (overflow? limit reason (bytes ++ p)).map .failed⟩ := by
  by_cases h : bytes.size ≤ limit
  · have hnone : overflow? limit reason bytes = none := overflow?_eq_none_iff.2 h
    simp only [write, filled, hnone, Option.map_none, Sink.write_filled h,
      Nat.min_eq_right h]
  · have hbytes : overflow? limit reason bytes = some (.refused reason) := if_neg h
    obtain ⟨hsame, hmore⟩ := Sink.filled_append_of_lt (Nat.not_le.1 h) reason p
    have hnothing : min limit (bytes.size + p.size) - min limit bytes.size = 0 := by omega
    simp only [write, filled, hmore, hbytes, hsame, hnothing, Option.map_some]

theorem writeEach_filled (bytes : ByteArray) (items : List ByteArray) :
    ((filled limit reason bytes).writeEach items).2 =
      filled limit reason (bytes ++ joinBytes items) := by
  induction items generalizing bytes with
  | nil => rw [writeEach, joinBytes, ByteArray.append_empty]
  | cons p rest ih =>
    simp only [writeEach, write_filled, joinBytes]
    rw [ih, ByteArray.append_assoc]

/-- The numbers reported by the writes add up to what has reached the sink. -/
theorem totalTaken_writeEach (limit : Nat) (reason : String) (bytes : ByteArray)
    (items : List ByteArray) :
    totalTaken ((filled limit reason bytes).writeEach items).1 + min limit bytes.size =
      min limit (bytes.size + (joinBytes items).size) := by
  -- on the items: each write reports by how much the part within the limit grows
  induction items generalizing bytes with
  | nil =>
    simp only [writeEach, totalTaken, joinBytes, ByteArray.size_empty]
    omega
  | cons p rest ih =>
    have hrest := ih (bytes ++ p)
    simp only [ByteArray.size_append] at hrest
    simp only [writeEach, write_filled, totalTaken, joinBytes, ByteArray.size_append]
    omega

/-- All writes succeed exactly if there is room for everything. -/
theorem writeEach_filled_eq_none_iff {bytes : ByteArray} (h : bytes.size ≤ limit)
    (reason : String) (items : List ByteArray) :
    (∀ w ∈ ((filled limit reason bytes).writeEach items).1, w.2 = none) ↔
      bytes.size + (joinBytes items).size ≤ limit := by
  induction items generalizing bytes with
  | nil => simpa [writeEach, joinBytes] using h
  | cons p rest ih =>
    simp only [writeEach, write_filled, List.forall_mem_cons, Option.map_eq_none_iff,
      overflow?_eq_none_iff, joinBytes, ByteArray.size_append, ← Nat.add_assoc]
    constructor
    · rintro ⟨hfits, hrest⟩
      have hboth := (ih (by rw [ByteArray.size_append]; exact hfits)).1 hrest
      rwa [ByteArray.size_append] at hboth
    · intro hall
      have hfits : bytes.size + p.size ≤ limit := by omega
      refine ⟨hfits, (ih (by rw [ByteArray.size_append]; exact hfits)).2 ?_⟩
      rwa [ByteArray.size_append]

/-! ## Texts in pieces -/

theorem joinBytes_toUTF8 (pieces : List String) :
    joinBytes (pieces.map String.toUTF8) = (String.join pieces).toUTF8 := by
  induction pieces with
  | nil => rfl
  | cons piece rest ih =>
    rw [List.map_cons, joinBytes, ih, String.join_cons]
    exact String.toByteArray_append.symm

theorem writeAll_eq_writeEach {σ : Type} [Destination σ] (s : Sticky σ) (pieces : List String) :
    s.writeAll pieces = (s.writeEach (pieces.map String.toUTF8)).2 := by
  induction pieces generalizing s with
  | nil => rfl
  | cons piece rest ih => exact ih (s.write piece.toUTF8).dest

theorem writeAll_filled (pieces : List String) :
    (Sticky.new (.new (some limit) reason)).writeAll pieces =
      filled limit reason (String.join pieces).toUTF8 := by
  rw [writeAll_eq_writeEach, ← filled_empty, writeEach_filled, ByteArray.empty_append,
    joinBytes_toUTF8]

/-- What is left of items that are written one after another, and what is reported of them, where
there is a limit. -/
structure LosesTail (limit : Nat) (items : List ByteArray)
    (r : List (Nat × Option WriteError) × Sticky Sink) : Prop where
  /-- The first bytes of all items are there. -/
  content : r.2.dest.content = firstBytes limit (joinBytes items)
  /-- The reports account for them. -/
  counts : totalTaken r.1 = r.2.dest.content.size
  /-- No error is reported only if nothing is lost. -/
  silent : (∀ w ∈ r.1, w.2 = none) ↔ (joinBytes items).size ≤ limit
  /-- An error is reported again for all items that follow, of which nothing is taken. -/
  sticky : r.1.Pairwise fun w w' => ∀ e, w.2 = some e → w' = (0, some e)

theorem losesTail_writeEach (limit : Nat) (reason : String) (items : List ByteArray) :
    LosesTail limit items ((Sticky.new (Sink.new (some limit) reason)).writeEach items) := by
  rw [← filled_empty]
  have hempty : ByteArray.empty.size ≤ limit := Nat.zero_le limit
  have hcontent : ((filled limit reason .empty).writeEach items).2.dest.content =
      firstBytes limit (joinBytes items) := by
    rw [writeEach_filled, ByteArray.empty_append]
    rfl
  refine ⟨hcontent, ?_, ?_, pairwise_writeEach _ items⟩
  · have hcounts := totalTaken_writeEach limit reason .empty items
    rw [hcontent, size_firstBytes]
    simpa using hcounts
  · rw [writeEach_filled_eq_none_iff hempty, ByteArray.size_empty, Nat.zero_add]

end Sticky

/-! ## Sinks behind a buffer -/

namespace Buffered

variable {limit : Nat} {reason : String} {b : Buffered Sink} {bytes : ByteArray}

/-- The bytes written so far, in front of a sink with a limit. The first of them have been sent,
and what the sink had to say about them is remembered. As long as that is nothing, the others
are in the buffer. -/
def Fills (b : Buffered Sink) (limit : Nat) (reason : String) (bytes : ByteArray) : Prop :=
  ∃ sent rest, sent ++ rest = bytes ∧ b.dest = .filled limit reason sent ∧
    b.error = overflow? limit reason sent ∧ (b.error = none → b.buffer = rest)

/-- All bytes written so far have been sent, as far as the sink took them. -/
structure Passed (b : Buffered Sink) (limit : Nat) (reason : String) (bytes : ByteArray) :
    Prop where
  dest : b.dest = .filled limit reason bytes
  error : b.error = overflow? limit reason bytes
  buffer : b.error = none → b.buffer = .empty

theorem passed_new (h : bytes.size ≤ limit) (reason : String) :
    (new (.filled limit reason bytes)).Passed limit reason bytes :=
  ⟨rfl, (overflow?_eq_none_iff.2 h).symm, fun _ => rfl⟩

theorem Passed.eq_new (h : b.Passed limit reason bytes) (hfits : bytes.size ≤ limit) :
    b = new (.filled limit reason bytes) := by
  obtain ⟨dest, buffer, error⟩ := b
  obtain ⟨rfl, rfl, hbuffer⟩ := h
  have hnone : overflow? limit reason bytes = none := overflow?_eq_none_iff.2 hfits
  obtain rfl := hbuffer hnone
  rw [hnone]
  rfl

theorem Passed.fills (h : b.Passed limit reason bytes) : b.Fills limit reason bytes :=
  ⟨bytes, .empty, ByteArray.append_empty, h.dest, h.error, h.buffer⟩

theorem Fills.append (h : b.Fills limit reason bytes) (p : ByteArray) :
    Fills { b with buffer := b.buffer ++ p } limit reason (bytes ++ p) := by
  obtain ⟨sent, rest, rfl, hdest, herror, hbuffer⟩ := h
  refine ⟨sent, rest ++ p, ByteArray.append_assoc.symm, hdest, herror, ?_⟩
  intro hnone
  rw [hbuffer hnone]

/-- After an error, what is written does not matter. -/
theorem Fills.of_error (h : b.Fills limit reason bytes) (he : b.error.isSome) (p : ByteArray) :
    b.Fills limit reason (bytes ++ p) := by
  obtain ⟨sent, rest, rfl, hdest, herror, -⟩ := h
  refine ⟨sent, rest ++ p, ByteArray.append_assoc.symm, hdest, herror, ?_⟩
  intro hnone
  simp [hnone] at he

/-- With nothing left in the buffer, all has been sent. -/
theorem Fills.passed (h : b.Fills limit reason bytes)
    (hbuffer : b.error = none → b.buffer = .empty) : b.Passed limit reason bytes := by
  obtain ⟨sent, rest, rfl, hdest, herror, hrest⟩ := h
  by_cases hfits : sent.size ≤ limit
  · have hnone : b.error = none := by rw [herror, overflow?_eq_none_iff.2 hfits]
    obtain rfl : rest = .empty := by rw [← hrest hnone, hbuffer hnone]
    rw [ByteArray.append_empty]
    exact ⟨hdest, herror, hbuffer⟩
  · -- the sink was full before the rest
    obtain ⟨hsame, hover⟩ := Sink.filled_append_of_lt (Nat.not_le.1 hfits) reason rest
    exact ⟨by rw [hdest, hsame], by rw [herror, hover], hbuffer⟩

/-- A flush sends everything. -/
theorem Fills.flush (h : b.Fills limit reason bytes) : b.flush.Passed limit reason bytes := by
  by_cases hidle : b.error.isSome ∨ b.buffer.size = 0
  · rw [Buffered.flush, if_pos hidle]
    apply h.passed
    intro hnone
    rcases hidle with he | hzero
    · simp [hnone] at he
    · exact ByteArray.size_eq_zero_iff.1 hzero
  · obtain ⟨sent, rest, rfl, hdest, herror, hbuffer⟩ := h
    have hnone : b.error = none := by
      rw [← Option.not_isSome_iff_eq_none]
      exact fun he => hidle (Or.inl he)
    have hfits : sent.size ≤ limit := overflow?_eq_none_iff.1 (herror.symm.trans hnone)
    rw [Buffered.flush, if_neg hidle, hdest, hbuffer hnone, Sink.write_filled hfits]
    cases hover : overflow? limit reason (sent ++ rest) with
    | none => exact ⟨rfl, hover.symm, fun _ => rfl⟩
    | some e =>
      refine ⟨rfl, hover.symm, ?_⟩
      intro he
      cases he

/-- Bytes taken when all others have been sent stay in the buffer or are sent at once. -/
theorem Passed.take (h : b.Passed limit reason bytes) (hnone : b.error = none) (p : ByteArray) :
    (b.take p).dest.Fills limit reason (bytes ++ p) := by
  unfold Buffered.take
  split
  · exact h.fills.append p
  · have hfits : bytes.size ≤ limit := overflow?_eq_none_iff.1 (h.error.symm.trans hnone)
    rw [h.dest, Sink.write_filled hfits]
    apply Passed.fills
    exact ⟨rfl, rfl, fun _ => h.buffer hnone⟩

/-- What is written comes behind the bytes written so far. -/
theorem Fills.write (h : b.Fills limit reason bytes) (p : ByteArray) :
    (b.write p).dest.Fills limit reason (bytes ++ p) := by
  by_cases he : b.error.isSome = true
  · simp only [Buffered.write, if_pos he]
    exact h.of_error he p
  · have hnone : b.error = none := Option.not_isSome_iff_eq_none.1 he
    simp only [Buffered.write, if_neg he]
    split
    · exact h.append p
    · split
      · next _ hzero =>
        have hpassed := h.passed fun _ => ByteArray.size_eq_zero_iff.1 hzero
        exact hpassed.take hnone p
      · next hroom _ =>
        generalize blockSize - b.buffer.size = room at hroom ⊢
        -- the block is full and sent, and the sink may refuse it before the rest is taken
        have hblock := (h.append (p.extract 0 room)).flush
        have hbytes : bytes ++ p.extract 0 room ++ p.extract room p.size = bytes ++ p := by
          rw [ByteArray.append_assoc, extract_append_rest hroom]
        rw [← hbytes]
        split
        · next hfull => exact hblock.fills.of_error hfull _
        · next hopen => exact hblock.take (Option.not_isSome_iff_eq_none.1 hopen) _

theorem Fills.writeString (h : b.Fills limit reason bytes) (s : String) :
    (b.writeString s).Fills limit reason (bytes ++ s.toUTF8) :=
  h.write s.toUTF8

theorem Fills.writeStrings {α : Type} (f : α → String) (items : List α)
    (h : b.Fills limit reason bytes) :
    (items.foldl (fun out item => out.writeString (f item)) b).Fills limit reason
      (bytes ++ (String.join (items.map f)).toUTF8) := by
  apply foldl_writeString (P := fun b bytes => b.Fills limit reason bytes) f _ items h
  intro b bytes s hb
  exact hb.writeString s

end Buffered

/-! ## Outputs -/

/-- An output is a text. All of it reaches a sink that takes everything. A sink with a limit gets
the first bytes of it, and there is an error exactly if these are not all. -/
structure Delivers {ε : Type} (out : Sink → Sink × Option ε) (text : ByteArray) : Prop where
  whole : (out .unbounded).1.content = text ∧ (out .unbounded).2 = none
  front : ∀ limit reason, (out (.new (some limit) reason)).1.content = firstBytes limit text
  refused : ∀ limit reason, (out (.new (some limit) reason)).2 ≠ none ↔ limit < text.size

/-- What is written piece by piece through a `Sticky` is delivered as a whole. -/
theorem delivers_pieces {ε : Type} (pieces : List String) {f : WriteError → ε}
    {out : Sink → Sink × Option ε}
    (hout : ∀ sink, out sink = (((Sticky.new sink).writeAll pieces).dest,
      ((Sticky.new sink).writeAll pieces).error.map f)) :
    Delivers out (String.join pieces).toUTF8 := by
  constructor
  · rw [hout, Sticky.writeAll_of_unbounded rfl]
    exact ⟨ByteArray.empty_append, rfl⟩
  · intro limit reason
    rw [hout, Sticky.writeAll_filled]
    rfl
  · intro limit reason
    rw [hout, Sticky.writeAll_filled]
    simp [Sticky.filled, overflow?]

/-- The error that comes with the address at which writing goes on. -/
def Listing.Outcome.error? : Outcome → Option (BadAddress ⊕ WriteError)
  | .done _ => none
  | .unwritten _ cause => some (.inr cause)
  | .outside _ cause => some (.inl cause)

/-- A statement as an output. -/
def Listing.statementTo (m : Memory) (pc : Int) (sink : Sink) :
    Sink × Option (BadAddress ⊕ WriteError) :=
  ((writeStatement m pc sink).1, (writeStatement m pc sink).2.error?)

theorem Listing.delivers_statement {m : Memory} {pc : Nat} (h : pc < m.size) :
    Delivers (statementTo m pc) (statementText m pc).toUTF8 := by
  apply delivers_pieces (statementPieces m pc)
  intro sink
  simp only [statementTo, writeStatement_of_lt h]
  cases ((Sticky.new sink).writeAll (statementPieces m pc)).error with
  | none => rfl
  | some e => rfl

/-- The program text of a memory, any statement of its listing and the listing itself are
delivered up to the limit of the sink, with an error exactly if something is lost, and the
address after a statement is the same with any sink. So it is with items that are written one
after another. -/
theorem Memory.output_keeps_front (m : Memory) :
    Delivers m.dump m.text.toUTF8 ∧
    (∀ pc, m.Has pc →
      Delivers (Listing.statementTo m pc) (Listing.statementText m pc.toNat).toUTF8 ∧
      ∀ sink sink' : Sink,
        (Listing.writeStatement m pc sink).2.next = (Listing.writeStatement m pc sink').2.next) ∧
    (∀ base, Delivers (Listing.write m base)
      (String.join ((Listing.statements m).flatMap (Listing.linePieces m base))).toUTF8) ∧
    ∀ limit reason items, Sticky.LosesTail limit items
      ((Sticky.new (Sink.new (some limit) reason)).writeEach items) := by
  refine ⟨?_, ?_, ?_, Sticky.losesTail_writeEach⟩
  · apply delivers_pieces m.pieces (f := id)
    intro sink
    rw [Option.map_id_apply, dump_eq]
  · intro pc hhas
    obtain ⟨n, rfl⟩ := Int.eq_ofNat_of_zero_le hhas.1
    have hlt : n < m.size := Int.ofNat_lt.1 hhas.2
    refine ⟨Listing.delivers_statement hlt, ?_⟩
    intro sink sink'
    rw [Listing.next_writeStatement hlt, Listing.next_writeStatement hlt]
  · intro base
    apply delivers_pieces ((Listing.statements m).flatMap (Listing.linePieces m base)) (f := id)
    intro sink
    rw [Option.map_id_apply, Listing.write_eq]

/-- An input instruction whose destination is no address. -/
def lostInput : Memory :=
  ⟨#[3, -5]⟩

/-- A sink with room for two bytes gets the operation of the statement only, but the address
behind the statement is known; the program text just fits in four. -/
theorem lostInput_front :
    lostInput.Has 0 ∧
      (Listing.statementTo lostInput 0 (.new (some 2) "full")).1.content = "in".toUTF8 ∧
      (Listing.statementTo lostInput 0 (.new (some 2) "full")).2 ≠ none ∧
      (Listing.writeStatement lostInput 0 (Sink.new (some 2) "full")).2.next = 2 ∧
      (lostInput.dump (Sink.new (some 4) "full")).1.content = "3,-5".toUTF8 ∧
      (lostInput.dump (Sink.new (some 4) "full")).2 = none := by
  have hhas : lostInput.Has 0 := by decide
  obtain ⟨hdump, hstatement, -, -⟩ := lostInput.output_keeps_front
  obtain ⟨hdelivers, hnext⟩ := hstatement 0 hhas
  refine ⟨hhas, ?_, ?_, ?_, ?_, ?_⟩
  · rw [hdelivers.front]
    decide +kernel
  · rw [hdelivers.refused]
    decide +kernel
  · rw [hnext _ .unbounded]
    decide +kernel
  · rw [hdump.front]
    decide +kernel
  · by_contra hne
    have hlost := (hdump.refused 4 "full").1 hne
    exact absurd hlost (by decide +kernel)

end CellMachine
