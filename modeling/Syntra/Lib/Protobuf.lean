import Mathlib.Data.List.Basic
import Syntra.Lib.Leb128

/-!
# Protocol buffers

The proto3 wire format of the kinds of fields that are written here.  A field is
a key, which holds its number and how it is stored, and a value; a field that
has its default is not written.
-/

set_option autoImplicit false

namespace Protobuf

inductive Value where
  | varint (value : Nat)
  | bytes (payload : List UInt8)
  deriving Repr, DecidableEq

structure Field where
  number : Nat
  value : Value
  deriving Repr, DecidableEq

namespace Field

def wireType (field : Field) : Nat :=
  match field.value with
  | .varint _ => 0
  | .bytes _ => 2

def encode (field : Field) : List UInt8 :=
  Leb128.encode (field.number * 8 + field.wireType) ++
    match field.value with
    | .varint value => Leb128.encode (value % 2 ^ 64)
    | .bytes payload => Leb128.encode payload.length ++ payload

def payload (field : Field) : Option (List UInt8) :=
  match field.value with
  | .varint _ => none
  | .bytes payload => some payload

end Field

def encode (fields : List Field) : List UInt8 := fields.flatMap Field.encode

theorem encode_cons (field : Field) (fields : List Field) :
    encode (field :: fields) = field.encode ++ encode fields := rfl

theorem length_payload_le {field : Field} {fields : List Field} (member : field ∈ fields)
    {payload : List UInt8} (carries : field.payload = some payload) :
    payload.length ≤ (encode fields).length := by
  have own : payload.length ≤ field.encode.length := by
    obtain ⟨number, value⟩ := field
    cases value with
    | varint value => cases carries
    | bytes held =>
        cases carries
        simp only [Field.encode, List.length_append]
        omega
  apply own.trans
  obtain ⟨before, after, rfl⟩ := List.append_of_mem member
  simp only [encode, List.flatMap_append, List.flatMap_cons, List.length_append]
  omega

/-! ## Fields of the schema -/

def uint (number value : Nat) : List Field :=
  if value = 0 then [] else [{ number, value := .varint value }]

/-- A negative number is written as the 64-bit word it wraps to. -/
def int (number : Nat) (value : Int) : List Field := uint number (value % 2 ^ 64).toNat

def boolean (number : Nat) (value : Bool) : List Field := uint number (if value then 1 else 0)

def bytes (number : Nat) (payload : List UInt8) : List Field :=
  if payload.isEmpty then [] else [{ number, value := .bytes payload }]

def string (number : Nat) (text : String) : List Field := bytes number text.toUTF8.toList

def message (number : Nat) (fields : List Field) : Field :=
  { number, value := .bytes (encode fields) }

/-- Every field has a number of that property. -/
def Numbered (good : Nat → Prop) (fields : List Field) : Prop :=
  ∀ field ∈ fields, good field.number

section
variable {good : Nat → Prop} {number : Nat}

theorem numbered_append {left right : List Field} :
    Numbered good (left ++ right) ↔ Numbered good left ∧ Numbered good right :=
  List.forall_mem_append

theorem numbered_uint (holds : good number) (value : Nat) : Numbered good (uint number value) := by
  unfold uint
  split
  · exact fun field member => absurd member List.not_mem_nil
  · intro field member
    rw [List.mem_singleton.mp member]
    exact holds

theorem numbered_int (holds : good number) (value : Int) : Numbered good (int number value) :=
  numbered_uint holds _

theorem numbered_boolean (holds : good number) (value : Bool) :
    Numbered good (boolean number value) := numbered_uint holds _

theorem numbered_bytes (holds : good number) (payload : List UInt8) :
    Numbered good (bytes number payload) := by
  unfold bytes
  split
  · exact fun field member => absurd member List.not_mem_nil
  · intro field member
    rw [List.mem_singleton.mp member]
    exact holds

theorem numbered_string (holds : good number) (text : String) :
    Numbered good (string number text) := numbered_bytes holds _

theorem numbered_option {α : Type} {value : Option α} {field : α → Field}
    (holds : ∀ v, good (field v).number) : Numbered good (value.map field).toList := by
  intro field member
  obtain ⟨v, -, rfl⟩ := Option.map_eq_some_iff.mp (Option.mem_toList.mp member)
  exact holds v

theorem numbered_map {α : Type} {values : List α} {field : α → Field}
    (holds : ∀ v, good (field v).number) : Numbered good (values.map field) := by
  intro field member
  obtain ⟨v, -, rfl⟩ := List.mem_map.mp member
  exact holds v

end

/-- How many fields with that number have payloads. -/
def occurrences (number : Nat) (fields : List Field) : Nat :=
  fields.countP fun field => field.number = number && field.payload.isSome

theorem occurrences_append (number : Nat) (left right : List Field) :
    occurrences number (left ++ right) = occurrences number left + occurrences number right :=
  List.countP_append

theorem occurrences_eq_zero {number : Nat} {fields : List Field}
    (others : Numbered (· ≠ number) fields) : occurrences number fields = 0 := by
  apply List.countP_eq_zero.mpr
  intro field member
  simp [others field member]

theorem occurrences_le (number : Nat) (fields : List Field) :
    occurrences number fields ≤ fields.length := List.countP_le_length

/-! ## Reading

A reader has to take every encoding that the wire format allows: numbers with more
bytes than they need, fields that the schema does not know, and groups. -/

/-- The bytes of a number that fits 64 bits, in ten bytes at most. -/
structure Reads (bytes : List UInt8) (value : Nat) : Prop where
  complete : Leb128.Complete bytes
  short : bytes.length ≤ 10
  exact : Leb128.value bytes = value
  word : value < 2 ^ 64

/-- A message, with the number and the payload of its length-delimited fields in order. -/
inductive Parses : List UInt8 → List (Nat × List UInt8) → Prop
  | nil : Parses [] []
  | varint {number value : Nat} {key digits rest : List UInt8} {fields : List (Nat × List UInt8)}
      (keyed : Reads key (number * 8 + 0)) (read : Reads digits value)
      (others : Parses rest fields) : Parses (key ++ (digits ++ rest)) fields
  | fixed64 {number : Nat} {key word rest : List UInt8} {fields : List (Nat × List UInt8)}
      (keyed : Reads key (number * 8 + 1)) (sized : word.length = 8)
      (others : Parses rest fields) : Parses (key ++ (word ++ rest)) fields
  | delimited {number : Nat} {key digits payload rest : List UInt8}
      {fields : List (Nat × List UInt8)} (keyed : Reads key (number * 8 + 2))
      (sized : Reads digits payload.length) (others : Parses rest fields) :
      Parses (key ++ (digits ++ (payload ++ rest))) ((number, payload) :: fields)
  | group {number : Nat} {key inner stop rest : List UInt8}
      {skipped fields : List (Nat × List UInt8)} (keyed : Reads key (number * 8 + 3))
      (inside : Parses inner skipped) (closed : Reads stop (number * 8 + 4))
      (others : Parses rest fields) : Parses (key ++ (inner ++ (stop ++ rest))) fields
  | fixed32 {number : Nat} {key word rest : List UInt8} {fields : List (Nat × List UInt8)}
      (keyed : Reads key (number * 8 + 5)) (sized : word.length = 4)
      (others : Parses rest fields) : Parses (key ++ (word ++ rest)) fields

def carried (number : Nat) (fields : List (Nat × List UInt8)) : List (List UInt8) :=
  (fields.filter fun field => field.1 = number).map (·.2)

theorem carried_cons (number : Nat) (field : Nat × List UInt8)
    (fields : List (Nat × List UInt8)) :
    carried number (field :: fields) =
      if field.1 = number then field.2 :: carried number fields else carried number fields := by
  unfold carried
  rw [List.filter_cons]
  by_cases same : field.1 = number
  · simp [same]
  · simp [same]

theorem mem_carried {number : Nat} {payload : List UInt8} {fields : List (Nat × List UInt8)} :
    payload ∈ carried number fields ↔ (number, payload) ∈ fields := by
  unfold carried
  simp only [List.mem_map, List.mem_filter, decide_eq_true_eq]
  constructor
  · rintro ⟨field, ⟨there, rfl⟩, rfl⟩
    exact there
  · exact fun there => ⟨(number, payload), ⟨there, rfl⟩, rfl⟩

theorem reads_encode {value : Nat} (word : value < 2 ^ 64) : Reads (Leb128.encode value) value :=
  { complete := Leb128.complete_encode value
    short := Leb128.length_encode_le 10 value (by decide) (by omega)
    exact := Leb128.value_encode value
    word }

theorem parses_encode {fields : List Field} (numbered : Numbered (· < 2 ^ 29) fields)
    (sized : (encode fields).length < 2 ^ 64) :
    Parses (encode fields)
      (fields.filterMap fun field => field.payload.map fun payload => (field.number, payload)) := by
  induction fields with
  | nil => exact Parses.nil
  | cons field fields ih =>
      have number := numbered field List.mem_cons_self
      rw [encode_cons] at sized ⊢
      rw [List.length_append] at sized
      have others := ih (fun other member => numbered other (List.mem_cons_of_mem _ member))
        (by omega)
      obtain ⟨number_, value⟩ := field
      dsimp only at number
      rw [Field.encode, List.append_assoc]
      cases value with
      | varint value =>
          exact Parses.varint (reads_encode (show number_ * 8 + 0 < 2 ^ 64 by omega))
            (reads_encode (Nat.mod_lt _ (by decide))) others
      | bytes payload =>
          have fits : payload.length < 2 ^ 64 := by
            simp only [Field.encode, List.length_append] at sized
            omega
          rw [List.filterMap_cons, List.append_assoc]
          exact Parses.delimited (reads_encode (show number_ * 8 + 2 < 2 ^ 64 by omega))
            (reads_encode fits) others

end Protobuf
