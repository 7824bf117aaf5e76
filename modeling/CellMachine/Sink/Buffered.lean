import CellMachine.Sink.Basic

/-!
# Buffered destinations

A buffered destination collects bytes and passes them on in blocks. An error of
the destination behind it ends all writing, and what could not be passed on
stays in the buffer.
-/

namespace CellMachine

/-- A destination behind a buffer. -/
structure Buffered (σ : Type) where
  dest : σ
  buffer : ByteArray
  error : Option WriteError

namespace Buffered

variable {σ : Type} [Destination σ]

/-- The number of bytes collected before they are passed on. -/
def blockSize : Nat := 4096

/-- An empty buffer in front of a destination. -/
def new (dest : σ) : Buffered σ :=
  ⟨dest, .empty, none⟩

/-- Passes on what is in the buffer. -/
def flush (b : Buffered σ) : Buffered σ :=
  if b.error.isSome ∨ b.buffer.size = 0 then b
  else
    let w := Destination.write b.dest b.buffer
    match w.error with
    | none => ⟨w.dest, .empty, none⟩
    | some e => ⟨w.dest, b.buffer.extract w.taken b.buffer.size, some e⟩

/-- Takes bytes into an empty buffer: a large piece is passed on at once. -/
def take (b : Buffered σ) (p : ByteArray) : Written (Buffered σ) :=
  if p.size ≤ blockSize then ⟨{ b with buffer := b.buffer ++ p }, p.size, none⟩
  else
    let w := Destination.write b.dest p
    ⟨⟨w.dest, b.buffer, w.error⟩, w.taken, w.error⟩

/-- Takes bytes, and passes on the buffer when it is full and more bytes follow. -/
def write (b : Buffered σ) (p : ByteArray) : Written (Buffered σ) :=
  let room := blockSize - b.buffer.size
  if b.error.isSome then ⟨b, 0, b.error⟩
  else if p.size ≤ room then ⟨{ b with buffer := b.buffer ++ p }, p.size, none⟩
  else if b.buffer.size = 0 then b.take p
  else
    let b := flush { b with buffer := b.buffer ++ p.extract 0 room }
    if b.error.isSome then ⟨b, room, b.error⟩
    else
      let w := b.take (p.extract room p.size)
      ⟨w.dest, room + w.taken, w.error⟩

instance : Destination (Buffered σ) :=
  ⟨write⟩

/-- Writes a text. -/
def writeString (b : Buffered σ) (s : String) : Buffered σ :=
  (b.write s.toUTF8).dest

end Buffered

end CellMachine
