/-! # JSON values

A `Json` value is a JSON text without its layout.  An object keeps its members as they are
written, repeated names included, and a number keeps its literal.  A string that holds half of a
surrogate pair has no text: it is allowed wherever nobody asks for the text. -/

namespace RecordRepair

/-- A string of a JSON text: its characters, or nothing if half a surrogate pair stands alone. -/
abbrev JsonText := Option String

/-- A JSON value. -/
inductive Json where
  | null
  | bool (value : Bool)
  /-- A number, as it is written. -/
  | number (literal : String)
  | string (text : JsonText)
  | array (items : List Json)
  | object (members : List (JsonText × Json))

namespace Json

/-- The string value of a text. -/
def ofText (text : String) : Json := string (some text)

/-- The number value of a natural number. -/
def ofNat (n : Nat) : Json := number (toString n)

/-- The object with the given members. -/
def ofMembers (members : List (String × Json)) : Json :=
  object (members.map fun m => (some m.1, m.2))

/-- The text of a string, the null value of nothing. -/
def ofOption : Option String → Json
  | some text => ofText text
  | none => null

end Json

end RecordRepair
