import RecordRepair.ClassFile.Basic
import RecordRepair.Json.Reader
import RecordRepair.Json.Slots

/-! # Class declarations as JSON

`ClassFile.ofJson?` reads a class declaration and `ClassFile.toJson` writes one.  Reading accepts
objects, whose unknown members it ignores, and arrays of the fields in order; writing gives an
object with every member. -/

namespace RecordRepair

open Json (required optional orElse slots?)

/-- The members of fields and methods, in order. -/
def memberNames : List String := ["access_flags", "name", "descriptor", "signature"]

namespace Field

/-- Reads a field. -/
def ofJson? (value : Json) : Option Field := do
  match ← slots? memberNames 3 value with
  | [access, name, descriptor, signature] =>
    some {
      access := ← required Json.word? access
      name := ← required Json.text? name
      descriptor := ← required Json.text? descriptor
      signature := ← optional Json.text? signature }
  | _ => none

/-- Writes a field. -/
def toJson (field : Field) : Json :=
  .ofMembers [
    ("access_flags", .ofNat field.access.toNat),
    ("name", .ofText field.name),
    ("descriptor", .ofText field.descriptor),
    ("signature", .ofOption field.signature)]

end Field

namespace Method

/-- Reads a method. -/
def ofJson? (value : Json) : Option Method := do
  match ← slots? memberNames 3 value with
  | [access, name, descriptor, signature] =>
    some {
      access := ← required Json.word? access
      name := ← required Json.text? name
      descriptor := ← required Json.text? descriptor
      signature := ← optional Json.text? signature }
  | _ => none

/-- Writes a method. -/
def toJson (method : Method) : Json :=
  .ofMembers [
    ("access_flags", .ofNat method.access.toNat),
    ("name", .ofText method.name),
    ("descriptor", .ofText method.descriptor),
    ("signature", .ofOption method.signature)]

end Method

namespace Component

/-- The members of record components, in order. -/
def names : List String := ["name", "descriptor", "signature"]

/-- Reads a record component. -/
def ofJson? (value : Json) : Option Component := do
  match ← slots? names 2 value with
  | [name, descriptor, signature] =>
    some {
      name := ← required Json.text? name
      descriptor := ← required Json.text? descriptor
      signature := ← optional Json.text? signature }
  | _ => none

/-- Writes a record component. -/
def toJson (component : Component) : Json :=
  .ofMembers [
    ("name", .ofText component.name),
    ("descriptor", .ofText component.descriptor),
    ("signature", .ofOption component.signature)]

end Component

namespace ClassFile

/-- The members of classes, in order. -/
def names : List String :=
  ["internal_name", "access_flags", "super_class", "interfaces", "signature", "fields", "methods",
    "record_components"]

/-- Reads a class declaration. -/
def ofJson? (value : Json) : Option ClassFile := do
  match ← slots? names 3 value with
  | [name, access, superclass, interfaces, signature, fields, methods, components] =>
    some {
      name := ← required Json.text? name
      access := ← required Json.word? access
      superclass := ← optional Json.text? superclass
      interfaces := ← orElse (Json.list? Json.text?) [] interfaces
      signature := ← optional Json.text? signature
      fields := ← orElse (Json.list? Field.ofJson?) [] fields
      methods := ← orElse (Json.list? Method.ofJson?) [] methods
      components := ← optional (Json.list? Component.ofJson?) components }
  | _ => none

/-- Reads a class declaration from JSON text. -/
def ofText? (text : String) : Option ClassFile := (Json.read? text).bind ofJson?

/-- Writes a class declaration. -/
def toJson (c : ClassFile) : Json :=
  .ofMembers [
    ("internal_name", .ofText c.name),
    ("access_flags", .ofNat c.access.toNat),
    ("super_class", .ofOption c.superclass),
    ("interfaces", .array (c.interfaces.map .ofText)),
    ("signature", .ofOption c.signature),
    ("fields", .array (c.fields.map Field.toJson)),
    ("methods", .array (c.methods.map Method.toJson)),
    ("record_components",
      c.components.elim .null fun list => .array (list.map Component.toJson))]

end ClassFile

end RecordRepair
