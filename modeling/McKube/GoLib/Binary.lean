import McKube.Abi.LittleEndian

/-!
# Fixed-size binary data

`binary.Read` with `binary.LittleEndian` on a value of fixed size: the fields of
a structure are read one after the other, without any padding between them.

* `decode_field_append`: a structure is decoded field by field.
* `read_of_length`: data of the right length is decoded without error.
-/

namespace GoLib.binary

/-- The errors of `io.ReadFull`. -/
inductive ReadError where
  | eof
  | unexpectedEOF
  deriving DecidableEq

/-- A type of fixed size: `dataSize`, and the value of that many bytes. -/
structure Decoder (α : Type) where
  size : Nat
  decode : List UInt8 → α

namespace Decoder

variable {α β : Type}

def scalar (s : Abi.Scalar α) : Decoder α where
  size := s.width
  decode := s.decode

/-- No fields yet. -/
def start (make : α) : Decoder α where
  size := 0
  decode := fun _ => make

/-- One more field. -/
def field (fields : Decoder (α → β)) (d : Decoder α) : Decoder β where
  size := fields.size + d.size
  decode bytes := fields.decode (bytes.take fields.size) (d.decode (bytes.drop fields.size))

theorem decode_field_append {fields : Decoder (α → β)} {d : Decoder α} {bytes : List UInt8}
    (hlength : bytes.length = fields.size) (rest : List UInt8) :
    (fields.field d).decode (bytes ++ rest) = fields.decode bytes (d.decode rest) := by
  show fields.decode ((bytes ++ rest).take fields.size)
    (d.decode ((bytes ++ rest).drop fields.size)) = _
  rw [← hlength, List.take_left, List.drop_left]

end Decoder

/-- `binary.Read` from a reader that holds `data`. -/
def read {α : Type} (d : Decoder α) (data : List UInt8) : Except ReadError α :=
  if d.size ≤ data.length then .ok (d.decode (data.take d.size))
  else .error (if data = [] then .eof else .unexpectedEOF)

theorem read_of_length {α : Type} {d : Decoder α} {data : List UInt8}
    (hlength : data.length = d.size) : read d data = .ok (d.decode data) := by
  rw [read, if_pos (le_of_eq hlength.symm), ← hlength, List.take_length]

theorem read_eq_ok_iff {α : Type} {d : Decoder α} {data : List UInt8} {value : α} :
    read d data = .ok value ↔ d.size ≤ data.length ∧ d.decode (data.take d.size) = value := by
  unfold read
  split
  · next hlength => simp [hlength]
  · next hshort => simp [hshort]

end GoLib.binary
