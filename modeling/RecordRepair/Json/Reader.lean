import RecordRepair.Json.Token

/-! # Reading JSON text

`Json.read?` reads a text that is exactly one JSON value.  The open arrays and objects stand on a
stack, so that the depth of nesting plays no part. -/

namespace RecordRepair.Json

/-- Takes a run of decimal digits, which must not be empty, off the front of a literal. -/
def takeDigits? (s : List Char) : Option (List Char) :=
  if s.head?.any Char.isDigit then some (s.dropWhile Char.isDigit) else none

/-- Takes the whole part of a number off the front: `0`, or digits that do not begin with `0`. -/
def takeWhole? : List Char → Option (List Char)
  | '0' :: rest => some rest
  | s => takeDigits? s

/-- Takes a fraction off the front, if there is one. -/
def takeFraction? : List Char → Option (List Char)
  | '.' :: rest => takeDigits? rest
  | s => some s

/-- Takes an exponent off the front, if there is one. -/
def takeExponent? (s : List Char) : Option (List Char) :=
  match s with
  | [] => some []
  | e :: rest =>
    if e = 'e' ∨ e = 'E' then
      match rest with
      | '+' :: rest => takeDigits? rest
      | '-' :: rest => takeDigits? rest
      | _ => takeDigits? rest
    else some s

/-- Whether a literal is a number. -/
def isNumber (literal : String) : Bool :=
  let s := literal.toList
  let unsigned := if s.head? = some '-' then s.tail else s
  (takeWhole? unsigned).bind takeFraction? |>.bind takeExponent? |>.any List.isEmpty

/-- The value of a literal. -/
def ofLiteral? (literal : String) : Option Json :=
  if literal = "true" then some (bool true)
  else if literal = "false" then some (bool false)
  else if literal = "null" then some null
  else if isNumber literal then some (number literal)
  else none

/-- An open array or object, with what it holds so far, the last entry first. -/
inductive Frame where
  | array (items : List Json)
  /-- An object whose member of that name comes next. -/
  | object (members : List (JsonText × Json)) (name : JsonText)

/-- What comes next. -/
inductive Expected where
  /-- A value, or the end of the array if the array is still empty. -/
  | value (orEnd : Bool)
  /-- A member's name, or the end of the object if the object is still empty. -/
  | name (members : List (JsonText × Json)) (orEnd : Bool)
  | colon (members : List (JsonText × Json)) (name : JsonText)
  /-- Whatever may follow a value. -/
  | follow (value : Json)

/-- The reading of a value: the open arrays and objects, the innermost first, and what comes
next. -/
structure Reading where
  stack : List Frame
  expected : Expected

namespace Reading

/-- A value is expected. -/
def beginValue (stack : List Frame) (orEnd : Bool) : Token → Option Reading
  | .string text => some ⟨stack, .follow (.string text)⟩
  | .literal text => (ofLiteral? text).map fun value => ⟨stack, .follow value⟩
  | .mark c =>
    if c = '[' then some ⟨.array [] :: stack, .value true⟩
    else if c = '\x7b' then some ⟨stack, .name [] true⟩
    else if c = ']' ∧ orEnd then
      match stack with
      | .array items :: stack => some ⟨stack, .follow (.array items.reverse)⟩
      | _ => none
    else none

/-- A value is complete, and its array or object goes on or ends. -/
def afterValue (stack : List Frame) (value : Json) (c : Char) : Option Reading :=
  match stack with
  | [] => none
  | .array items :: stack =>
    if c = ',' then some ⟨.array (value :: items) :: stack, .value false⟩
    else if c = ']' then some ⟨stack, .follow (.array (value :: items).reverse)⟩
    else none
  | .object members name :: stack =>
    if c = ',' then some ⟨stack, .name ((name, value) :: members) false⟩
    else if c = '\x7d' then some ⟨stack, .follow (.object ((name, value) :: members).reverse)⟩
    else none

/-- Reads one more token. -/
def step (reading : Reading) (token : Token) : Option Reading :=
  let stack := reading.stack
  match reading.expected, token with
  | .value orEnd, token => beginValue stack orEnd token
  | .name members _, .string name => some ⟨stack, .colon members name⟩
  | .name members orEnd, .mark c =>
    if c = '\x7d' ∧ orEnd then some ⟨stack, .follow (.object members.reverse)⟩ else none
  | .colon members name, .mark c =>
    if c = ':' then some ⟨.object members name :: stack, .value false⟩ else none
  | .follow value, .mark c => afterValue stack value c
  | _, _ => none

/-- The value of a text that ends here. -/
def finish? (reading : Reading) : Option Json :=
  match reading.stack, reading.expected with
  | [], .follow value => some value
  | _, _ => none

end Reading

/-- The value that a text writes. -/
def read? (text : String) : Option Json := do
  let tokens ← tokens? text
  let reading ← tokens.foldlM Reading.step ⟨[], .value false⟩
  reading.finish?

end RecordRepair.Json
