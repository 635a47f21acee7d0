import RecordRepair.Json.Slots
import RecordRepair.Registry

/-! # Registry entries as JSON

`ClassInfo.ofJson?` reads what is known of a class. -/

namespace RecordRepair.ClassInfo

/-- Reads what is known of a class. -/
def ofJson? (value : Json) : Option ClassInfo := do
  match ← Json.slots? ["is_interface"] 1 value with
  | [isInterface] => some { isInterface := ← Json.required Json.bool? isInterface }
  | _ => none

/-- Writes what is known of a class. -/
def toJson (info : ClassInfo) : Json := .ofMembers [("is_interface", .bool info.isInterface)]

end RecordRepair.ClassInfo
