import RecordRepair.Json.Basic

/-! # Reading records from JSON values

A record is written either as an object, or as the array of its fields in order.

* `Json.slots?` brings both forms together: it lists what is given for each field.  In an object a
  field may be left out but not given twice; in an array fields may be missing at the end.
* The other functions read the value given for one field. -/

namespace RecordRepair.Json

/-- What an object's members give for a field: nothing, or one value; two are refused. -/
def slot? (members : List (JsonText × Json)) (field : String) : Option (Option Json) :=
  match members.filter fun m => m.1 == some field with
  | [] => some none
  | [m] => some (some m.2)
  | _ => none

/-- What a value gives for each field of a record.  `least` is the number of fields that the array
form cannot do without. -/
def slots? (fields : List String) (least : Nat) : Json → Option (List (Option Json))
  | object members =>
    if members.all fun m => m.1.isSome then fields.mapM (slot? members) else none
  | array items =>
    if least ≤ items.length ∧ items.length ≤ fields.length then
      some (items.map some ++ List.replicate (fields.length - items.length) none)
    else none
  | _ => none

/-- Whether each member of an object belongs to one of the fields; an array has no other. -/
def knownOnly (fields : List String) : Json → Bool
  | object members => members.all fun m => m.1.any fields.contains
  | _ => true

/-- The text of a string. -/
def text? : Json → Option String
  | string text => text
  | _ => none

/-- A truth value. -/
def bool? : Json → Option Bool
  | bool value => some value
  | _ => none

/-- A natural number of at most 16 bits, written without a sign, a fraction or an exponent. -/
def word? : Json → Option UInt16
  | number literal =>
    if literal.length ≤ 5 then
      match literal.toNat? with
      | some n => if n < 65536 then some n.toUInt16 else none
      | none => none
    else none
  | _ => none

/-- The items of an array, each read alike. -/
def list? (read : Json → Option α) : Json → Option (List α)
  | array items => items.mapM read
  | _ => none

/-- A field that has to be given. -/
def required (read : Json → Option α) (slot : Option Json) : Option α := slot.bind read

/-- A field that may be left out, with the value that it then has. -/
def orElse (read : Json → Option α) (default : α) : Option Json → Option α
  | none => some default
  | some value => read value

/-- A field that may be left out or null. -/
def optional (read : Json → Option α) : Option Json → Option (Option α)
  | none => some none
  | some null => some none
  | some value => (read value).map some

end RecordRepair.Json
