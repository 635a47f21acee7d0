import RecordRepair.Descriptor.Basic
import RecordRepair.FormatError

/-! # Reading descriptors

A field descriptor is a run of `[`, one per array dimension, and then the letter of a primitive
type or `L`, a class name and `;`.  A method descriptor lists such types between `(` and `)`, and
then gives the result type, or `V` for none.

* `FieldType.read?` reads one type off the front of a text; what is left is shorter
  (`FieldType.read?_length_lt`).
* `FieldType.ofDescriptor` and `MethodDescriptor.ofDescriptor` read a whole text and refuse one
  with anything left over.  A refusal carries the whole text. -/

namespace RecordRepair

/-- Reads one type off the front of a text. -/
def FieldType.read? : List Char → Option (FieldType × List Char)
  | [] => none
  | c :: rest =>
    if c = '[' then
      (read? rest).map fun p => (array p.1, p.2)
    else if c = 'L' then
      match rest.takeWhile (· != ';'), rest.dropWhile (· != ';') with
      | [], _ => none
      | _ :: _, [] => none
      | d :: name, _ :: rest => some (object (String.ofList (d :: name)), rest)
    else
      (BaseType.ofLetter? c).map fun b => (base b, rest)

theorem FieldType.read?_length_lt {s r : List Char} {t : FieldType}
    (h : FieldType.read? s = some (t, r)) : r.length < s.length := by
  induction s generalizing t r with
  | nil => simp [FieldType.read?] at h
  | cons c rest ih =>
    unfold FieldType.read? at h
    split at h
    · obtain ⟨⟨t', r'⟩, hr, he⟩ := Option.map_eq_some_iff.1 h
      cases he
      have := ih hr
      simp only [List.length_cons]
      omega
    · split at h
      · split at h
        · cases h
        · cases h
        · rename_i hd
          cases h
          have := (List.dropWhile_suffix (l := rest) (· != ';')).length_le
          rw [hd] at this
          simp only [List.length_cons] at this ⊢
          omega
      · obtain ⟨b, _, he⟩ := Option.map_eq_some_iff.1 h
        cases he
        simp

/-- The type that a field descriptor stands for. -/
def FieldType.ofDescriptor (text : String) : Except FormatError FieldType :=
  match FieldType.read? text.toList with
  | some (type, []) => .ok type
  | _ => .error (.invalidDescriptor text)

namespace MethodDescriptor

/-- Reads parameter types up to and including the closing `)`. -/
def readParameters? (s : List Char) : Option (List FieldType × List Char) :=
  match s with
  | ')' :: rest => some ([], rest)
  | s =>
    match _h : FieldType.read? s with
    | none => none
    | some (type, rest) => (readParameters? rest).map fun p => (type :: p.1, p.2)
termination_by s.length
decreasing_by exact FieldType.read?_length_lt ‹_›

/-- Reads the result of a method off the front of a text. -/
def readResult? : List Char → Option (ReturnType × List Char)
  | 'V' :: rest => some (.void, rest)
  | s => (FieldType.read? s).map fun p => (.type p.1, p.2)

/-- Reads a whole method descriptor. -/
def read? : List Char → Option MethodDescriptor
  | '(' :: rest =>
    match readParameters? rest with
    | none => none
    | some (parameters, rest) =>
      match readResult? rest with
      | some (result, []) => some { parameters, result }
      | _ => none
  | _ => none

/-- The parameters and the result that a method descriptor stands for. -/
def ofDescriptor (text : String) : Except FormatError MethodDescriptor :=
  match read? text.toList with
  | some method => .ok method
  | none => .error (.invalidDescriptor text)

end MethodDescriptor

end RecordRepair
