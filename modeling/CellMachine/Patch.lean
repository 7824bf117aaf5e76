import CellMachine.Image

/-!
# Patches

A patch sets one memory cell before a program runs. Patches are written
`addr=value`, several of them separated by commas.
-/

namespace CellMachine

/-- A value for a memory cell. -/
structure Patch where
  addr : Int
  value : Cell
deriving DecidableEq, Inhabited

/-- Why a text is not a patch. -/
inductive PatchError where
  | form (field : Text)
  | address (field : Text) (cause : ReadingError)
  | value (field : Text) (cause : ReadingError)
deriving DecidableEq, Inhabited

/-- The wording of a patch error. -/
def PatchError.message : PatchError → String
  | form field => "invalid patch " ++ Quoted.quote field ++ ": expected addr=value"
  | address field cause =>
    "invalid patch address in " ++ Quoted.quote field ++ ": " ++ cause.message
  | value field cause => "invalid patch value in " ++ Quoted.quote field ++ ": " ++ cause.message

namespace Patch

/-- The patch written in a field. -/
def ofField (field : Text) : Except PatchError Patch :=
  let left := field.takeWhile (!·.is '=')
  match field.drop left.length with
  | [] => .error (.form field)
  | _ :: right =>
    match Numeral.read .index (Text.trim left) with
    | .error cause => .error (.address field cause)
    | .ok addr =>
      match Numeral.read .index (Text.trim right) with
      | .error cause => .error (.value field cause)
      | .ok value => .ok ⟨addr.toInt, value⟩

/-- The fields of a list of texts: their parts between commas, without white
space around them and without empty ones. -/
def fieldsOf (items : List Text) : List Text :=
  ((items.flatMap Image.commaFields).map Text.trim).filter (!·.isEmpty)

/-- The patches written in a list of texts. -/
def parse (items : List Text) : Except PatchError (List Patch) :=
  (fieldsOf items).mapM ofField

/-- The memory after a patch. -/
def apply (m : Memory) (p : Patch) : Except BadAddress Memory :=
  m.write p.addr p.value

/-- The memory after patches, made in order. -/
def applyAll (m : Memory) (ps : List Patch) : Except BadAddress Memory :=
  ps.foldlM apply m

end Patch

/-- The cells written in a text, of which there can be none. -/
def parseCells (t : Text) : Except ImageError (List Cell) :=
  if t.trim.isEmpty then .ok [] else (Image.parse t).map Memory.toList

end CellMachine
