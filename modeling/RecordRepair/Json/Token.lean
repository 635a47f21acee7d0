import RecordRepair.Json.Basic

/-! # Tokens of JSON text

`Json.tokens?` splits a text into marks, strings and literals, one character at a time.  A literal
is a run of letters, digits and signs; whether it is a number or one of the three words is for the
reader of the tokens to say. -/

namespace RecordRepair.Json

/-- A token of a JSON text. -/
inductive Token where
  /-- One of the marks `[`, `]`, `{`, `}`, `,` and `:`. -/
  | mark (c : Char)
  | string (text : JsonText)
  /-- A number or a word. -/
  | literal (text : String)
deriving DecidableEq, Repr

/-- The value of a hexadecimal digit. -/
def hexDigit? (c : Char) : Option Nat :=
  if '0' ≤ c ∧ c ≤ '9' then some (c.toNat - '0'.toNat)
  else if 'a' ≤ c ∧ c ≤ 'f' then some (c.toNat - 'a'.toNat + 10)
  else if 'A' ≤ c ∧ c ≤ 'F' then some (c.toNat - 'A'.toNat + 10)
  else none

/-- The character that `\` and a letter stand for. -/
def escaped? : Char → Option Char
  | '"' => some '"'
  | '\\' => some '\\'
  | '/' => some '/'
  | 'b' => some '\x08'
  | 'f' => some '\x0c'
  | 'n' => some '\n'
  | 'r' => some '\r'
  | 't' => some '\t'
  | _ => none

/-- A string of which some characters have been read. -/
structure Opened where
  text : JsonText
  /-- The first half of a surrogate pair, if the last escape was one. -/
  half : Option Nat

namespace Opened

/-- A string of which nothing has been read. -/
def empty : Opened := ⟨some "", none⟩

/-- Reads one more character.  It leaves a half pair before it alone. -/
def push (string : Opened) (c : Char) : Opened :=
  match string.half with
  | none => ⟨string.text.map fun s => s.push c, none⟩
  | some _ => ⟨none, none⟩

/-- Reads one more code unit, written as four hexadecimal digits. -/
def pushUnit (string : Opened) (unit : Nat) : Opened :=
  if 0xDC00 ≤ unit ∧ unit ≤ 0xDFFF then
    match string.half with
    | some high =>
      let c := Char.ofNat (0x10000 + (high - 0xD800) * 0x400 + (unit - 0xDC00))
      ⟨string.text.map fun s => s.push c, none⟩
    | none => ⟨none, none⟩
  else if 0xD800 ≤ unit ∧ unit ≤ 0xDBFF then
    match string.half with
    | some _ => ⟨none, none⟩
    | none => ⟨string.text, some unit⟩
  else string.push (Char.ofNat unit)

/-- The text of a finished string. -/
def close (string : Opened) : JsonText := if string.half.isSome then none else string.text

end Opened

/-- The token that is being read. -/
inductive Pending where
  | nothing
  | literal (text : String)
  | string (string : Opened)
  /-- Behind a `\`. -/
  | escape (string : Opened)
  /-- Behind `\u`, with the number of digits left and the value of those read. -/
  | unit (string : Opened) (left value : Nat)

/-- The tokens read so far, the last one first, and the one that is being read. -/
structure Scanner where
  tokens : List Token
  current : Pending

namespace Scanner

/-- Whether a character belongs to a number or a word. -/
def inLiteral (c : Char) : Bool := c.isAlphanum || c == '+' || c == '-' || c == '.'

/-- Whether a character is blank between tokens. -/
def isBlank (c : Char) : Bool := c == ' ' || c == '\t' || c == '\n' || c == '\r'

/-- Whether a character is a token of its own. -/
def isMark (c : Char) : Bool :=
  c == '[' || c == ']' || c == '\x7b' || c == '\x7d' || c == ',' || c == ':'

/-- Begins a token with its first character. -/
def begin (tokens : List Token) (c : Char) : Option Scanner :=
  if isBlank c then some ⟨tokens, .nothing⟩
  else if isMark c then some ⟨.mark c :: tokens, .nothing⟩
  else if c = '"' then some ⟨tokens, .string .empty⟩
  else if inLiteral c then some ⟨tokens, .literal (String.singleton c)⟩
  else none

/-- Reads one more character. -/
def step (scanner : Scanner) (c : Char) : Option Scanner :=
  let tokens := scanner.tokens
  match scanner.current with
  | .nothing => begin tokens c
  | .literal text =>
    if inLiteral c then some ⟨tokens, .literal (text.push c)⟩
    else begin (.literal text :: tokens) c
  | .string opened =>
    if c = '"' then some ⟨.string opened.close :: tokens, .nothing⟩
    else if c = '\\' then some ⟨tokens, .escape opened⟩
    else if c < ' ' then none
    else some ⟨tokens, .string (opened.push c)⟩
  | .escape opened =>
    if c = 'u' then some ⟨tokens, .unit opened 3 0⟩
    else (escaped? c).map fun c => ⟨tokens, .string (opened.push c)⟩
  | .unit opened left value =>
    (hexDigit? c).map fun digit =>
      match left with
      | 0 => ⟨tokens, .string (opened.pushUnit (value * 16 + digit))⟩
      | left + 1 => ⟨tokens, .unit opened left (value * 16 + digit)⟩

/-- The tokens of a text that ends here. -/
def finish? (scanner : Scanner) : Option (List Token) :=
  match scanner.current with
  | .nothing => some scanner.tokens.reverse
  | .literal text => some (Token.literal text :: scanner.tokens).reverse
  | _ => none

end Scanner

/-- The tokens of a text. -/
def tokens? (text : String) : Option (List Token) :=
  (text.toList.foldlM Scanner.step ⟨[], .nothing⟩).bind Scanner.finish?

end RecordRepair.Json
