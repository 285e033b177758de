import KernelLink.Json.Skip
/-!
# Records in documents

A record is written as an object and is read leniently: members may stand in any order, unknown ones
are ignored, and a sequence of the fields' values in their order is taken as well. A `Shape` says
which fields there are, what each may hold and what stands in for one that is not there.

The same shape is read in two ways that refuse alike and differ in what else they notice. From a
finished document (`Shape.ofJson`) the refusal has no place. From text (`Shape.readText`) fields are
checked as they are met, a refusal has a place, and unknown members are only passed over.

Main definitions:
* `Field`, `Shape`: the layout of a record.
* `Shape.ofJson`, `Shape.readText`: the values of the fields in their order.
* `Shape.toJson`: the object with given values.
-/
namespace KernelLink
namespace Json

/-- What kind of reader a finished document comes from. It decides only how a sequence with too many
elements is worded. -/
inductive Origin where
  /-- An untyped value. -/
  | value
  /-- A document that was set aside while its tag was looked for. -/
  | buffered
  deriving Repr, DecidableEq

/-- A number of elements with its noun. -/
def elementCount (n : Nat) : String := toString n ++ (if n = 1 then " element" else " elements")

/-- The refusal of a sequence of `count` elements for a record of `wanted` fields. -/
def Origin.surplus (origin : Origin) (count wanted : Nat) : Mismatch :=
  match origin with
  | .value => .wrongLength count "fewer elements in array"
  | .buffered => .wrongLength count (elementCount wanted ++ " in sequence")

/-- One field of a record. -/
structure Field where
  /-- The name that its member has. -/
  name : String
  /-- Accepts what the field may hold, in normal form. -/
  check : Origin → Json → Except Mismatch Json
  /-- What stands in when no member has the name. -/
  absent : Option Json
  /-- What stands in when a sequence ends before the field. -/
  short : Option Json

/-- The layout of a record. -/
structure Shape where
  /-- The name of the record in messages. -/
  name : String
  /-- The fields in their order. -/
  fields : List Field

/-! ## What a field may hold -/

/-- A text. -/
def checkText (_ : Origin) : Json → Except Mismatch Json
  | .str s => .ok (.str s)
  | v => .error (.wrongType v.found "a string")

/-- A text or nothing. -/
def checkOptionalText (origin : Origin) : Json → Except Mismatch Json
  | .null => .ok .null
  | v => checkText origin v

/-- A truth value. -/
def checkFlag (_ : Origin) : Json → Except Mismatch Json
  | .bool b => .ok (.bool b)
  | v => .error (.wrongType v.found "a boolean")

/-- A natural number that fits a machine word, called `kind` in messages. -/
def checkNatural (kind : String) (_ : Origin) : Json → Except Mismatch Json
  | .num (.int i) => if i < 0 then .error (.wrongValue (.int i) kind) else .ok (.num (.int i))
  | v => .error (.wrongType v.found kind)

/-- Anything. -/
def checkAny (_ : Origin) (v : Json) : Except Mismatch Json := .ok v.normal

/-- A sequence of anything. -/
def checkList (_ : Origin) : Json → Except Mismatch Json
  | .arr vs => .ok (.arr (normalItems vs))
  | v => .error (.wrongType v.found "a sequence")

/-- A field that must be there. -/
def Field.required (name : String) (check : Origin → Json → Except Mismatch Json) : Field :=
  ⟨name, check, none, none⟩

/-- A field with a value that stands in for it. -/
def Field.defaulted (name : String) (check : Origin → Json → Except Mismatch Json) (value : Json) :
    Field :=
  ⟨name, check, some value, some value⟩

namespace Shape

/-! ## From a finished document -/

/-- Takes a member into the values found so far. -/
def take (shape : Shape) (origin : Origin) (found : List (String × Json)) (key : String)
    (v : Json) : Except Mismatch (List (String × Json)) :=
  match shape.fields.find? (·.name == key) with
  | none => .ok found
  | some field =>
    if (found.lookup key).isSome then .error (.duplicateField key)
    else (field.check origin v).map fun w => (key, w) :: found

/-- The values of the fields, with what stands in for those not found. -/
def complete (found : List (String × Json)) : List Field → Except Mismatch (List Json)
  | [] => .ok []
  | field :: fields =>
    match (found.lookup field.name).or field.absent with
    | none => .error (.missingField field.name)
    | some v => (complete found fields).map (v :: ·)

/-- What stands in for the fields that a sequence of `count` elements does not reach. -/
def pad (shape : Shape) (count : Nat) : List Field → Except Mismatch (List Json)
  | [] => .ok []
  | field :: fields =>
    match field.short with
    | some v => (pad shape (count + 1) fields).map (v :: ·)
    | none =>
      .error (.wrongLength count
        ("struct " ++ shape.name ++ " with " ++ elementCount shape.fields.length))

/-- The values of fields given as a sequence. -/
def ofItems (shape : Shape) (origin : Origin) (count : Nat) :
    List Field → List Json → Except Mismatch (List Json)
  | [], [] => .ok []
  | [], rest => .error (origin.surplus (count + rest.length) shape.fields.length)
  | fields, [] => pad shape count fields
  | field :: fields, v :: vs =>
    match field.check origin v with
    | .error m => .error m
    | .ok w => (ofItems shape origin (count + 1) fields vs).map (w :: ·)

/-- The values of the fields in a finished document. -/
def ofJson (shape : Shape) (origin : Origin) : Json → Except Mismatch (List Json)
  | .obj members =>
    match members.foldlM (fun found m => shape.take origin found m.1 m.2) [] with
    | .error m => .error m
    | .ok found => complete found shape.fields
  | .arr vs => shape.ofItems origin 0 shape.fields vs
  | v => .error (.wrongType v.found ("struct " ++ shape.name))

/-- The object with the given values. -/
def toJson (shape : Shape) (values : List Json) : Json :=
  .obj ((shape.fields.map (·.name)).zip values)

/-! ## From text -/

/-- How many bytes are left where a refusal inside an object is placed that is noticed right after a
key: past the blanks, and past the brace if the object ends here. -/
def placeAfterKey (s : List UInt8) : Nat :=
  match skipSpace s with
  | b :: r => if glyph b = '}' then r.length else r.length + 1
  | [] => 0

/-- Reads a scalar that `check` accepts. A bracket is refused before it is read, a scalar after. -/
def readScalar (check : Json → Except Mismatch Json) (s : List UInt8) : Reading Json :=
  let refuse (v : Json) (s : List UInt8) : Reading Json :=
    match check v with
    | .ok w => .ok (w, s)
    | .error m => stop (.mismatch m) s
  match skipSpace s with
  | [] => stop .endInValue []
  | b :: r =>
    match glyph b with
    | '[' => refuse (.arr []) (b :: r)
    | '{' => refuse (.obj []) (b :: r)
    | _ =>
      match value 0 0 (b :: r) with
      | .error f => .error f
      | .ok (v, r) => refuse v r

/-- Takes a member from text into the values found so far. -/
def takeText (shape : Shape) (found : List (String × Json)) (key : String) (s : List UInt8) :
    Except Fault (List (String × Json) × List UInt8) :=
  match shape.fields.find? (·.name == key) with
  | none => do
    let s ← colon s
    let s ← skipValue s
    return (found, s)
  | some field =>
    if (found.lookup key).isSome then
      .error ⟨.mismatch (.duplicateField key), placeAfterKey s⟩
    else do
      let s ← colon s
      let (v, s) ← readScalar (field.check .value) s
      return ((key, v) :: found, s)

/-- The closing bracket after the last field. -/
def closeItems (s : List UInt8) : Reading (List Json) :=
  match skipSpace s with
  | [] => stop .endInList []
  | b :: r =>
    match glyph b with
    | ']' => .ok ([], r)
    | ',' =>
      match skipSpace r with
      | b' :: r' =>
        if glyph b' = ']' then stopAt .trailingComma (b' :: r')
        else stopAt .trailingCharacters (b' :: r')
      | [] => stopAt .trailingCharacters []
    | _ => stopAt .trailingCharacters (b :: r)

/-- The values of fields given as a sequence in text, from the element `count` on. -/
def readItems (shape : Shape) : (count : Nat) → List Field → List UInt8 → Reading (List Json)
  | _, [], s => closeItems s
  | count, field :: fields, s =>
    match nextItem (count == 0) s with
    | .error f => .error f
    | .ok (false, r) =>
      match pad shape count (field :: fields) with
      | .ok vs => .ok (vs, r)
      | .error m => stop (.mismatch m) r
    | .ok (true, r) =>
      match readScalar (field.check .value) r with
      | .error f => .error f
      | .ok (v, r) => (readItems shape (count + 1) fields r).map fun (vs, r) => (v :: vs, r)

/-- The values of the fields of a record whose fields hold scalars. -/
def readText (shape : Shape) (s : List UInt8) : Reading (List Json) :=
  match skipSpace s with
  | [] => stop .endInValue []
  | b :: r =>
    match glyph b with
    | '{' =>
      match members shape.takeText (r.length + 1) true [] r with
      | .error f => .error f
      | .ok (found, r) =>
        match complete found shape.fields with
        | .ok vs => .ok (vs, r)
        | .error m => stop (.mismatch m) r
    | '[' => shape.readItems 0 shape.fields r
    | _ =>
      match value 0 0 (b :: r) with
      | .error f => .error f
      | .ok (v, r) => stop (.mismatch (.wrongType v.found ("struct " ++ shape.name))) r

/-- The values of the fields of a record that makes up a whole text. -/
def readWhole (shape : Shape) (s : List UInt8) : Except ReadError (List Json) :=
  let whole : Except Fault (List Json) := do
    let (vs, r) ← shape.readText s
    finish r
    return vs
  whole.mapError (Fault.locate s)

end Shape
end Json
end KernelLink
