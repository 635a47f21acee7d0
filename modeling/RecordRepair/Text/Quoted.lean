import RecordRepair.Text.Printable

/-! # Quoted text

`quote` writes a text between double quotes so that every character in it can be seen: a quote and
a backslash get a backslash before them, the common control characters have a letter, and any other
character that cannot be shown by itself is written by its hexadecimal code. -/

namespace RecordRepair.Text

/-- The hexadecimal digits of a number. -/
def hexDigits (n : Nat) : String := String.ofList (Nat.toDigits 16 n)

/-- A character as it stands between quotes. -/
def quoteChar (c : Char) : String :=
  if c = '\x00' then "\\0"
  else if c = '\t' then "\\t"
  else if c = '\r' then "\\r"
  else if c = '\n' then "\\n"
  else if c = '"' then "\\\""
  else if c = '\\' then "\\\\"
  else if isExtending c || !isPrintable c then "\\u\x7b" ++ hexDigits c.toNat ++ "\x7d"
  else String.singleton c

/-- A text between quotes. -/
def quote (text : String) : String :=
  (text.toList.foldl (fun out c => out ++ quoteChar c) "\"").push '"'

end RecordRepair.Text
