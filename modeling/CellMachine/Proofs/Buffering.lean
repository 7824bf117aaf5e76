import CellMachine.Proofs.Sweep
import CellMachine.Sink.Buffered

/-!
# Buffers in front of a sink

When bytes move from a buffer to the sink behind it depends on how much is written at a
time, but for a sink that takes everything it makes no difference in the end. What has
been passed on together with what is still in the buffer is what has been written
(`Buffered.Holds.write`), and a flush leaves all of it in the sink
(`Buffered.Holds.flush`).
-/

set_option autoImplicit false

namespace CellMachine

/-- A sink with some more bytes in it. -/
def Sink.andBytes (sink : Sink) (bytes : ByteArray) : Sink :=
  { sink with content := sink.content ++ bytes }

theorem Sink.andBytes_empty (sink : Sink) : sink.andBytes .empty = sink := by
  simp [andBytes]

theorem Sink.write_andBytes {sink : Sink} (h : sink.capacity = none) (p q : ByteArray) :
    Destination.write (sink.andBytes p) q = ⟨sink.andBytes (p ++ q), q.size, none⟩ := by
  show (sink.andBytes p).write q = _
  simp [Sink.write, andBytes, h, ByteArray.append_assoc]

namespace Buffered

/-- Nothing has gone wrong, and the bytes written so far are in the sink, behind what it
held at first, or in the buffer. -/
structure Holds (b : Buffered Sink) (sink : Sink) (bytes : ByteArray) : Prop where
  intact : b.error = none
  split : ∃ sent, b.dest = sink.andBytes sent ∧ sent ++ b.buffer = bytes

variable {sink : Sink} {b : Buffered Sink} {bytes : ByteArray}

/-- What goes into the buffer, and what is left of the bytes then, are all of them. -/
theorem extract_append_rest {p : ByteArray} {room : Nat} (h : ¬ p.size ≤ room) :
    p.extract 0 room ++ p.extract room p.size = p := by
  rw [← ByteArray.extract_eq_extract_append_extract room (Nat.zero_le room) (Nat.le_of_not_le h),
    ByteArray.extract_zero_size]

/-- What is true of the bytes written so far, if each text adds its own, is true of their
concatenation. -/
theorem foldl_writeString {P : Buffered Sink → ByteArray → Prop} {α : Type} (f : α → String)
    (hstep : ∀ b bytes s, P b bytes → P (b.writeString s) (bytes ++ s.toUTF8)) (items : List α)
    (h : P b bytes) :
    P (items.foldl (fun out item => out.writeString (f item)) b)
      (bytes ++ (String.join (items.map f)).toUTF8) := by
  induction items generalizing b bytes with
  | nil => simpa using h
  | cons item rest ih =>
    have hrest := ih (hstep b bytes (f item) h)
    rw [ByteArray.append_assoc] at hrest
    rw [List.foldl_cons, List.map_cons, String.join_cons]
    simpa [String.toByteArray_append] using hrest

/-- A buffer with nothing in it, in front of a sink with some bytes passed on. -/
theorem holds_passed (sink : Sink) (bytes : ByteArray) :
    Holds ⟨sink.andBytes bytes, .empty, none⟩ sink bytes :=
  ⟨rfl, bytes, rfl, ByteArray.append_empty⟩

theorem holds_new (sink : Sink) : (new sink).Holds sink .empty := by
  have h := holds_passed sink .empty
  rwa [Sink.andBytes_empty] at h

theorem Holds.append (h : b.Holds sink bytes) (p : ByteArray) :
    Holds { b with buffer := b.buffer ++ p } sink (bytes ++ p) := by
  obtain ⟨herr, sent, hdest, rfl⟩ := h
  exact ⟨herr, sent, hdest, ByteArray.append_assoc.symm⟩

/-- A flush leaves everything in the sink. -/
theorem Holds.flush (hs : sink.capacity = none) (h : b.Holds sink bytes) :
    b.flush = ⟨sink.andBytes bytes, .empty, none⟩ := by
  obtain ⟨herr, sent, hdest, rfl⟩ := h
  by_cases hbuf : b.buffer.size = 0
  · have hempty : b.buffer = .empty := ByteArray.size_eq_zero_iff.1 hbuf
    rw [Buffered.flush, if_pos (.inr hbuf), hempty, ByteArray.append_empty, ← hdest, ← hempty,
      ← herr]
  · have hgo : ¬ (b.error.isSome = true ∨ b.buffer.size = 0) := by simp [herr, hbuf]
    rw [Buffered.flush, if_neg hgo, hdest, Sink.write_andBytes hs]

/-- Bytes taken into an empty buffer stay there or go past it. -/
theorem Holds.take (hs : sink.capacity = none) (h : b.Holds sink bytes)
    (hbuf : b.buffer = .empty) (p : ByteArray) :
    (b.take p).error = none ∧ (b.take p).dest.Holds sink (bytes ++ p) := by
  unfold Buffered.take
  split
  · exact ⟨rfl, h.append p⟩
  · obtain ⟨-, sent, hdest, rfl⟩ := h
    rw [hdest, Sink.write_andBytes hs, hbuf, ByteArray.append_empty]
    exact ⟨rfl, holds_passed sink (sent ++ p)⟩

/-- What is written is added to what is held, and no error is met. -/
theorem Holds.write (hs : sink.capacity = none) (h : b.Holds sink bytes) (p : ByteArray) :
    (b.write p).error = none ∧ (b.write p).dest.Holds sink (bytes ++ p) := by
  have herr : ¬ b.error.isSome = true := by simp [h.intact]
  simp only [Buffered.write, if_neg herr]
  split
  · exact ⟨rfl, h.append p⟩
  · split
    · next _ hzero => exact h.take hs (ByteArray.size_eq_zero_iff.1 hzero) p
    · next hroom _ =>
      -- the buffer is filled up and passed on, and the rest is taken
      generalize blockSize - b.buffer.size = room at hroom ⊢
      have htake := (holds_passed sink (bytes ++ p.extract 0 room)).take hs rfl
        (p.extract room p.size)
      rw [ByteArray.append_assoc, extract_append_rest hroom] at htake
      rw [(h.append (p.extract 0 room)).flush hs, if_neg (by simp)]
      exact htake

theorem Holds.writeString (hs : sink.capacity = none) (h : b.Holds sink bytes) (s : String) :
    (b.writeString s).Holds sink (bytes ++ s.toUTF8) :=
  (h.write hs s.toUTF8).2

/-- Texts written one after another are held as their concatenation. -/
theorem Holds.writeStrings {α : Type} (hs : sink.capacity = none) (f : α → String)
    (items : List α) (h : b.Holds sink bytes) :
    (items.foldl (fun out item => out.writeString (f item)) b).Holds sink
      (bytes ++ (String.join (items.map f)).toUTF8) := by
  apply foldl_writeString (P := fun b bytes => b.Holds sink bytes) f _ items h
  intro b bytes s hb
  exact hb.writeString hs s

/-- Pieces written through a buffer are held as their concatenation. -/
theorem Holds.writeAll (hs : sink.capacity = none) (h : b.Holds sink bytes)
    (pieces : List String) :
    ∃ b', (Sticky.new b).writeAll pieces = Sticky.new b' ∧
      b'.Holds sink (bytes ++ (String.join pieces).toUTF8) := by
  induction pieces generalizing b bytes with
  | nil => exact ⟨b, rfl, by simpa using h⟩
  | cons piece rest ih =>
    obtain ⟨herr, hpiece⟩ := h.write hs piece.toUTF8
    obtain ⟨b', hall, hrest⟩ := ih hpiece
    have hfirst : ((Sticky.new b).write piece.toUTF8).dest =
        Sticky.new (b.write piece.toUTF8).dest := by
      show Sticky.mk (b.write piece.toUTF8).dest ((b.write piece.toUTF8).error.map .failed) = _
      rw [herr]
      rfl
    refine ⟨b', ?_, ?_⟩
    · rw [← hall, ← hfirst]
      rfl
    · rw [ByteArray.append_assoc] at hrest
      rw [String.join_cons]
      simpa [String.toByteArray_append] using hrest

end Buffered

end CellMachine
