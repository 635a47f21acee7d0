/-! # Bytes cut to text

`cutText?` takes as much text as fits into a limit off the front of some bytes.  A cut may fall
inside a character of up to four bytes, so up to three bytes are given up before the bytes count
as no text at all. -/

namespace RecordRepair.Text

/-- The greatest number of bytes that are kept. -/
def sizeLimit : Nat := 16 * 1024

/-- The greatest number of bytes that are given up at the cut. -/
def trimLimit : Nat := 3

/-- The text of the first bytes, as many as the limit allows and less the trailing bytes that are
no whole character. -/
def cutText? (bytes : ByteArray) : Option String :=
  let cap := min bytes.size sizeLimit
  ((List.range (trimLimit + 1)).filter fun trim => trim ≤ cap).findSome? fun trim =>
    String.fromUTF8? (bytes.extract 0 (cap - trim))

end RecordRepair.Text
