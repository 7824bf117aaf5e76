/-!
# Destinations of bytes

A destination takes bytes, and may take fewer than it is given. `Sink` is the
plain one: it keeps what it is given up to a capacity. `Sticky` remembers the
first error of the destination behind it, after which nothing more is sent.
-/

namespace CellMachine

/-- Why bytes did not reach their destination. -/
inductive WriteError where
  /-- The destination refused them, in its own words. -/
  | refused (reason : String)
  /-- An output made of several writes came to an end at a refused one. -/
  | failed (cause : WriteError)
deriving DecidableEq, Inhabited

/-- The wording of a write error. -/
def WriteError.message : WriteError → String
  | refused reason => reason
  | failed cause => "write failed: " ++ cause.message

/-- The outcome of a write: the destination afterwards, the number of bytes
taken, and the error if these are not all. -/
structure Written (σ : Type) where
  dest : σ
  taken : Nat
  error : Option WriteError

/-- A type of destinations. -/
class Destination (σ : Type) where
  write : σ → ByteArray → Written σ

/-- A destination that keeps what it is given, up to its capacity. -/
structure Sink where
  capacity : Option Nat
  /-- What it says when it is full. -/
  reason : String
  content : ByteArray

namespace Sink

/-- An empty sink. -/
def new (capacity : Option Nat) (reason : String) : Sink :=
  ⟨capacity, reason, .empty⟩

/-- A sink that takes everything. -/
def unbounded : Sink :=
  new none ""

/-- Keeps the bytes that fit, and refuses the write if some do not. -/
def write (s : Sink) (p : ByteArray) : Written Sink :=
  match s.capacity with
  | none => ⟨{ s with content := s.content ++ p }, p.size, none⟩
  | some capacity =>
    let room := capacity - s.content.size
    if p.size ≤ room then ⟨{ s with content := s.content ++ p }, p.size, none⟩
    else ⟨{ s with content := s.content ++ p.extract 0 room }, room, some (.refused s.reason)⟩

instance : Destination Sink :=
  ⟨write⟩

end Sink

/-- A destination with the first error met. -/
structure Sticky (σ : Type) where
  dest : σ
  error : Option WriteError

namespace Sticky

variable {σ : Type} [Destination σ]

/-- A destination that has met no error yet. -/
def new (dest : σ) : Sticky σ :=
  ⟨dest, none⟩

/-- Writes unless an earlier write has failed. -/
def write (s : Sticky σ) (p : ByteArray) : Written (Sticky σ) :=
  match s.error with
  | some e => ⟨s, 0, some e⟩
  | none =>
    let w := Destination.write s.dest p
    let error := w.error.map .failed
    ⟨⟨w.dest, error⟩, w.taken, error⟩

instance : Destination (Sticky σ) :=
  ⟨write⟩

/-- Writes one piece of text after the other. -/
def writeAll (s : Sticky σ) (pieces : List String) : Sticky σ :=
  pieces.foldl (fun s piece => (s.write piece.toUTF8).dest) s

/-- A write reports the error that is remembered. -/
theorem error_write (s : Sticky σ) (p : ByteArray) :
    (s.write p).error = (s.write p).dest.error := by
  cases h : s.error with
  | none => simp only [write, h]
  | some e => simp only [write, h]

theorem write_of_error {s : Sticky σ} {e : WriteError} (h : s.error = some e) (p : ByteArray) :
    s.write p = ⟨s, 0, some e⟩ := by
  simp only [write, h]

theorem writeAll_append (s : Sticky σ) (pieces pieces' : List String) :
    s.writeAll (pieces ++ pieces') = (s.writeAll pieces).writeAll pieces' :=
  List.foldl_append

/-- After an error nothing more is sent. -/
theorem writeAll_of_error {s : Sticky σ} {e : WriteError} (h : s.error = some e)
    (pieces : List String) : s.writeAll pieces = s := by
  induction pieces with
  | nil => rfl
  | cons piece rest ih =>
    show (s.write piece.toUTF8).dest.writeAll rest = s
    rw [write_of_error h]
    exact ih

end Sticky

end CellMachine
