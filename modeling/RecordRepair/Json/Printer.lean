import RecordRepair.Json.Basic

/-! # Printing JSON values

`Json.print` writes a value on one line, without blanks. -/

namespace RecordRepair.Json

/-- The hexadecimal digit of a value below 16. -/
def hexLetter (n : Nat) : Char :=
  if n < 10 then Char.ofNat ('0'.toNat + n) else Char.ofNat ('a'.toNat + n - 10)

/-- Writes one character of a string. -/
def putChar (out : String) (c : Char) : String :=
  if c = '"' then out ++ "\\\""
  else if c = '\\' then out ++ "\\\\"
  else if c < ' ' then
    ((out ++ "\\u00").push (hexLetter (c.toNat / 16))).push (hexLetter (c.toNat % 16))
  else out.push c

/-- Writes a string in quotes. -/
def putText (out : String) (text : String) : String :=
  (text.toList.foldl putChar (out.push '"')).push '"'

mutual

/-- Writes a value behind what has been written. -/
def put (out : String) : Json → String
  | null => out ++ "null"
  | bool true => out ++ "true"
  | bool false => out ++ "false"
  | number literal => out ++ literal
  | string text => putText out (text.getD "\uFFFD")
  | array items => (putItems (out.push '[') true items).push ']'
  | object members => (putMembers (out.push '\x7b') true members).push '\x7d'

/-- Writes the items of an array, each but the first behind a comma. -/
def putItems (out : String) (first : Bool) : List Json → String
  | [] => out
  | item :: items => putItems (put (if first then out else out.push ',') item) false items

/-- Writes the members of an object, each but the first behind a comma. -/
def putMembers (out : String) (first : Bool) : List (JsonText × Json) → String
  | [] => out
  | (name, value) :: members =>
    let named := putText (if first then out else out.push ',') (name.getD "\uFFFD")
    putMembers (put (named.push ':') value) false members

end

/-- The text of a value. -/
def print (value : Json) : String := put "" value

end RecordRepair.Json
