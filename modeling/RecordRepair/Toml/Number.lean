import RecordRepair.Toml.Token

/-! # Dates and numbers of TOML text

Readers for dates, times, whole numbers and floating-point numbers.  Each takes its part off the
front of a text.  A number may have single underscores between digits. -/

namespace RecordRepair.Toml

/-! ### Dates and times -/

/-- The number that decimal digits write. -/
def decimal (digits : List Char) : Nat :=
  digits.foldl (fun n c => n * 10 + (c.toNat - '0'.toNat)) 0

/-- Takes a number of exactly so many digits, between two bounds, off the front. -/
def field? (count least most : Nat) (s : List Char) : Option (Nat × List Char) :=
  let digits := s.take count
  let value := decimal digits
  if digits.length = count ∧ digits.all Char.isDigit ∧ least ≤ value ∧ value ≤ most then
    some (value, s.drop count)
  else none

/-- Takes one given character off the front. -/
def mark? (mark : Char) : List Char → Option (List Char)
  | [] => none
  | c :: rest => if c = mark then some rest else none

/-- The number of days in a month. -/
def daysIn (year month : Nat) : Nat :=
  if month = 2 then
    if year % 4 = 0 ∧ (year % 100 ≠ 0 ∨ year % 400 = 0) then 29 else 28
  else if month = 4 ∨ month = 6 ∨ month = 9 ∨ month = 11 then 30
  else 31

/-- Takes a date off the front. -/
def date? (s : List Char) : Option (List Char) := do
  let (year, s) ← field? 4 0 9999 s
  let (month, s) ← field? 2 1 12 (← mark? '-' s)
  let (_, s) ← field? 2 1 (daysIn year month) (← mark? '-' s)
  some s

/-- Leaves out the fraction of a second, which has at least one digit. -/
def skipFraction : List Char → List Char
  | '.' :: c :: rest => if c.isDigit then rest.dropWhile Char.isDigit else '.' :: c :: rest
  | s => s

/-- Takes a time of the day off the front. -/
def time? (s : List Char) : Option (List Char) := do
  let (_, s) ← field? 2 0 23 s
  let (_, s) ← field? 2 0 59 (← mark? ':' s)
  let (_, s) ← field? 2 0 60 (← mark? ':' s)
  some (skipFraction s)

/-- Takes the offset from universal time off the front. -/
def offset? : List Char → Option (List Char)
  | [] => none
  | c :: rest =>
    if c = 'Z' ∨ c = 'z' then some rest
    else if c = '+' ∨ c = '-' then do
      let (_, s) ← field? 2 0 23 rest
      let (_, s) ← field? 2 0 59 (← mark? ':' s)
      some s
    else none

/-- Takes the time behind a date off the front, with the letter or the blank before it. -/
def timeOfDate? : List Char → Option (List Char)
  | [] => none
  | c :: rest =>
    if c = 'T' ∨ c = 't' ∨ c = ' ' then (time? rest).map fun s => (offset? s).getD s else none

/-- Takes a date, a time or both off the front. -/
def dateTime? (s : List Char) : Option (List Char) :=
  match date? s with
  | some rest => some ((timeOfDate? rest).getD rest)
  | none => time? s

/-! ### Numbers -/

/-- Takes further digits off the front, single underscores left out. -/
def moreDigits? (isDigit : Char → Bool) (read : List Char) :
    List Char → Option (List Char × List Char)
  | [] => some (read.reverse, [])
  | '_' :: c :: rest => if isDigit c then moreDigits? isDigit (c :: read) rest else none
  | ['_'] => none
  | c :: rest =>
    if isDigit c then moreDigits? isDigit (c :: read) rest else some (read.reverse, c :: rest)

/-- Takes digits off the front, at least one. -/
def digits? (isDigit : Char → Bool) : List Char → Option (List Char × List Char)
  | [] => none
  | c :: rest => if isDigit c then moreDigits? isDigit [c] rest else none

/-- Takes the whole part of a number off the front, which has no needless zero. -/
def whole? : List Char → Option (List Char × List Char)
  | '0' :: rest => some (['0'], rest)
  | s => digits? Char.isDigit s

/-- Takes a sign off the front, if there is one, and says whether it is a minus. -/
def sign : List Char → Bool × List Char
  | '-' :: rest => (true, rest)
  | '+' :: rest => (false, rest)
  | s => (false, s)

/-- Takes a fraction off the front, if there is one. -/
def fraction? : List Char → Option (List Char × List Char)
  | '.' :: rest => digits? Char.isDigit rest
  | s => some ([], s)

/-- Takes an exponent off the front, if there is one. -/
def exponent? (s : List Char) : Option (Option Int × List Char) :=
  match s with
  | [] => some (none, [])
  | e :: rest =>
    if e = 'e' ∨ e = 'E' then
      let (negative, rest) := sign rest
      (digits? Char.isDigit rest).map fun p =>
        let value := (decimal p.1 : Int)
        (some (if negative then -value else value), p.2)
    else some (none, s)

/-- The number of double precision nearest to `digits * 10 ^ exponent`.  An exponent far out of
range is as good as one just out of range. -/
def nearest (negative : Bool) (digits : List Char) (exponent : Int) : Float :=
  let m := decimal digits
  let reach : Int := digits.length + 400
  let e := max (-reach) (min reach exponent)
  let value := Float.ofScientific m (e < 0) e.natAbs
  if negative then -value else value

/-- A number of double precision, unless it is too great. -/
def float? (value : Float) : Option Value :=
  if value == 1.0 / 0.0 then none else some (.float value)

/-- A whole number of 64 bits. -/
def integer? (value : Int) : Option Value :=
  if -0x8000000000000000 ≤ value ∧ value < 0x8000000000000000 then some (.integer value) else none

/-- Takes a number off the front that is written with a letter for its base. -/
def based? (base : Nat) (isDigit : Char → Bool) (s : List Char) : Option (Value × List Char) := do
  let (digits, rest) ← digits? isDigit s
  let values ← digits.mapM hexDigit?
  let value ← integer? (values.foldl (fun n digit => n * base + digit) 0 : Nat)
  some (value, rest)

/-- Takes a decimal number off the front, behind its sign. -/
def unsigned? (negative : Bool) (s : List Char) : Option (Value × List Char) := do
  let (whole, rest) ← whole? s
  let (fraction, rest) ← fraction? rest
  let (exponent, rest) ← exponent? rest
  if fraction = [] ∧ exponent = none then
    let magnitude := (decimal whole : Int)
    let value ← integer? (if negative then -magnitude else magnitude)
    some (value, rest)
  else
    let scale := exponent.getD 0 - fraction.length
    let value ← float? (nearest negative (whole ++ fraction) scale)
    some (value, rest)

/-- Takes a number off the front.  Infinity and numbers that are none have names. -/
def number? (s : List Char) : Option (Value × List Char) :=
  match s with
  | '0' :: 'x' :: rest => based? 16 (fun c => (hexDigit? c).isSome) rest
  | '0' :: 'o' :: rest => based? 8 (fun c => '0' ≤ c && c ≤ '7') rest
  | '0' :: 'b' :: rest => based? 2 (fun c => c == '0' || c == '1') rest
  | s =>
    let (negative, rest) := sign s
    match rest with
    | 'i' :: 'n' :: 'f' :: rest => some (.float (if negative then -1.0 / 0.0 else 1.0 / 0.0), rest)
    | 'n' :: 'a' :: 'n' :: rest => some (.float (0.0 / 0.0), rest)
    | rest => unsigned? negative rest

end RecordRepair.Toml
