import RecordRepair.Toml.Table

/-! # Words of TOML text

Readers for the parts of a line: blanks, comments, line ends, strings and keys.  Each takes its part
off the front of a text and gives back what is left, or nothing if the text does not begin with such
a part. -/

namespace RecordRepair.Toml

/-- Whether a character is blank within a line. -/
def isBlank (c : Char) : Bool := c == ' ' || c == '\t'

/-- Whether a character may stand in comments and strings: a tab, or no control character. -/
def isText (c : Char) : Bool := c == '\t' || (' ' ≤ c && c != '\x7f')

/-- Leaves out blanks. -/
def skipBlanks (s : List Char) : List Char := s.dropWhile isBlank

/-- Takes one line end off the front. -/
def newline? : List Char → Option (List Char)
  | '\n' :: rest => some rest
  | '\r' :: '\n' :: rest => some rest
  | _ => none

/-- Leaves out a comment. -/
def skipComment : List Char → List Char
  | '#' :: rest => rest.dropWhile isText
  | s => s

/-- Takes the rest of a line off the front: blanks, a comment, and the line end or the end of the
text. -/
def lineEnd? (s : List Char) : Option (List Char) :=
  match skipComment (skipBlanks s) with
  | [] => some []
  | s => newline? s

/-- The value of a hexadecimal digit. -/
def hexDigit? (c : Char) : Option Nat :=
  if '0' ≤ c ∧ c ≤ '9' then some (c.toNat - '0'.toNat)
  else if 'a' ≤ c ∧ c ≤ 'f' then some (c.toNat - 'a'.toNat + 10)
  else if 'A' ≤ c ∧ c ≤ 'F' then some (c.toNat - 'A'.toNat + 10)
  else none

/-- The character whose code is written by hexadecimal digits; halves of surrogate pairs are no
characters. -/
def coded? (digits : List Char) : Option Char := do
  let values ← digits.mapM hexDigit?
  let code := values.foldl (fun n digit => n * 16 + digit) 0
  if code.isValidChar then some (Char.ofNat code) else none

/-- The character that `\` and a letter stand for. -/
def escaped? : Char → Option Char
  | '"' => some '"'
  | '\\' => some '\\'
  | 'b' => some '\x08'
  | 'f' => some '\x0c'
  | 'n' => some '\n'
  | 'r' => some '\r'
  | 't' => some '\t'
  | _ => none

/-- Takes a character off the front that is written by as many hexadecimal digits. -/
def code? (count : Nat) (s : List Char) : Option (Char × List Char) :=
  let digits := s.take count
  if digits.length = count then (coded? digits).map fun c => (c, s.drop count) else none

/-- Takes an escape off the front, behind its `\`. -/
def escape? : List Char → Option (Char × List Char)
  | [] => none
  | c :: rest =>
    if c = 'u' then code? 4 rest
    else if c = 'U' then code? 8 rest
    else (escaped? c).map fun c => (c, rest)

theorem code?_length_le {count : Nat} {s r : List Char} {c : Char}
    (h : code? count s = some (c, r)) : r.length ≤ s.length := by
  unfold code? at h
  dsimp only at h
  split at h
  · obtain ⟨_, _, he⟩ := Option.map_eq_some_iff.1 h
    cases he
    simp
  · cases h

theorem escape?_length_lt {s r : List Char} {c : Char} (h : escape? s = some (c, r)) :
    r.length < s.length := by
  unfold escape? at h
  split at h
  · cases h
  · split at h
    · exact Nat.lt_succ_of_le (code?_length_le h)
    · split at h
      · exact Nat.lt_succ_of_le (code?_length_le h)
      · obtain ⟨_, _, he⟩ := Option.map_eq_some_iff.1 h
        cases he
        exact Nat.lt_succ_self _

/-- Takes the rest of a string between double quotes off the front. -/
def basicRest? (read : String) (s : List Char) : Option (String × List Char) :=
  match s with
  | [] => none
  | c :: rest =>
    if c = '"' then some (read, rest)
    else if c = '\\' then
      match h : escape? rest with
      | none => none
      | some (c, after) =>
        have := escape?_length_lt h
        basicRest? (read.push c) after
    else if isText c then basicRest? (read.push c) rest
    else none
termination_by s.length

/-- Takes the rest of a string between single quotes off the front. -/
def literalRest? (read : String) : List Char → Option (String × List Char)
  | [] => none
  | c :: rest =>
    if c = '\x27' then some (read, rest)
    else if isText c then literalRest? (read.push c) rest
    else none

/-- Whether a string of many lines ends here.  Up to two quotes before the last three belong to the
string. -/
inductive Closing where
  | goesOn
  | ends (quotes : Nat)
  | tooMany
deriving DecidableEq, Repr

/-- What a run of quotes means in a string of many lines. -/
def Closing.ofRun (n : Nat) : Closing :=
  if n < 3 then goesOn else if n < 6 then ends (n - 3) else tooMany

/-- The number of quotes at the front. -/
def quoteRun (quote : Char) (s : List Char) : Nat := (s.takeWhile (· == quote)).length

/-- Leaves out blanks and line ends. -/
def skipLines : List Char → List Char
  | [] => []
  | c :: rest =>
    if isBlank c || c == '\n' then skipLines rest
    else if c == '\r' && rest.head? == some '\n' then skipLines rest
    else c :: rest

theorem skipLines_length_le (s : List Char) : (skipLines s).length ≤ s.length := by
  induction s with
  | nil => simp [skipLines]
  | cons c rest ih =>
    unfold skipLines
    split
    · exact Nat.le_succ_of_le ih
    · split
      · exact Nat.le_succ_of_le ih
      · exact Nat.le_refl _

/-- Takes the rest of a string of many lines off the front.  Only one between double quotes has
escapes, and a `\` at the end of a line joins the next word to it. -/
def linesRest? (quote : Char) (escapes : Bool) (read : String) (s : List Char) :
    Option (String × List Char) :=
  match s with
  | [] => none
  | c :: rest =>
    if c = quote then
      match Closing.ofRun (quoteRun quote s) with
      | .goesOn => linesRest? quote escapes (read.push c) rest
      | .ends quotes =>
        some (read ++ String.ofList (List.replicate quotes quote), s.drop (quotes + 3))
      | .tooMany => none
    else if c = '\\' ∧ escapes then
      if (newline? (skipBlanks rest)).isSome then
        have := skipLines_length_le rest
        linesRest? quote escapes read (skipLines rest)
      else
        match h : escape? rest with
        | none => none
        | some (c, after) =>
          have := escape?_length_lt h
          linesRest? quote escapes (read.push c) after
    else if c = '\n' then linesRest? quote escapes (read.push c) rest
    else if c = '\r' then
      if rest.head? = some '\n' then linesRest? quote escapes read rest else none
    else if isText c then linesRest? quote escapes (read.push c) rest
    else none
termination_by s.length
decreasing_by all_goals (simp only [List.length_cons]; omega)

/-- Leaves out a line end that begins a string of many lines. -/
def skipFirstNewline (s : List Char) : List Char := (newline? s).getD s

/-- Takes a string off the front. -/
def string? : List Char → Option (String × List Char)
  | '"' :: '"' :: '"' :: rest => linesRest? '"' true "" (skipFirstNewline rest)
  | '"' :: rest => basicRest? "" rest
  | '\x27' :: '\x27' :: '\x27' :: rest => linesRest? '\x27' false "" (skipFirstNewline rest)
  | '\x27' :: rest => literalRest? "" rest
  | _ => none

/-- Whether a character may stand in a key without quotes. -/
def inBareKey (c : Char) : Bool := c.isAlphanum || c == '_' || c == '-'

/-- Takes one part of a key off the front. -/
def keyPart? : List Char → Option (String × List Char)
  | '"' :: rest => basicRest? "" rest
  | '\x27' :: rest => literalRest? "" rest
  | s =>
    match s.takeWhile inBareKey with
    | [] => none
    | name => some (String.ofList name, s.dropWhile inBareKey)

/-- Takes up to `limit` parts of a key off the front, with blanks around each and dots between
them. -/
def keyParts? : Nat → List Char → Option (List String × List Char)
  | 0, _ => none
  | limit + 1, s => do
    let (part, rest) ← keyPart? (skipBlanks s)
    match skipBlanks rest with
    | '.' :: rest =>
      let (parts, rest) ← keyParts? limit rest
      some (part :: parts, rest)
    | rest => some ([part], rest)

/-- Nesting and keys go less deep than this. -/
def depthLimit : Nat := 80

/-- Takes a key off the front. -/
def key? (s : List Char) : Option (Key × List Char) := do
  let (parts, rest) ← keyParts? (depthLimit - 1) s
  let name ← parts.getLast?
  some (⟨parts.dropLast, name⟩, rest)

end RecordRepair.Toml
