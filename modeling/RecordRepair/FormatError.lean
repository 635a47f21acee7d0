/-! # What is wrong with a descriptor or a signature

* `Signature.Defect` is the reason why a signature is refused at some place in its text.
* `FormatError` carries the whole refused text with it, and the place, counted in bytes of UTF-8.
* `FormatError.message` is the text shown to a reader. -/

namespace RecordRepair

namespace Signature

/-- Why a signature cannot be read or printed any further. -/
inductive Defect where
  | endOfText
  | emptyFormals
  | formalName
  | formalColon
  | openParameters
  | exceptionType
  | referenceType
  | variableName
  | variableEnd
  | classType
  | className
  | innerName
  | classEnd
  | emptyArguments
  | trailingText
  | formalAfterList
  | innerWithoutOuter
  | argumentOutsideClass
  | formalsNotClosed
  | noReturnType
deriving DecidableEq, Repr

/-- The reason in words. -/
def Defect.message : Defect → String
  | endOfText => "unexpected end of signature"
  | emptyFormals => "empty type parameter list"
  | formalName => "expected a type parameter name"
  | formalColon => "expected `:` after type parameter name"
  | openParameters => "expected `(` before method parameters"
  | exceptionType => "expected an exception type"
  | referenceType => "expected a reference type"
  | variableName => "expected a type variable name"
  | variableEnd => "expected `;` after type variable"
  | classType => "expected a class type"
  | className => "expected a class name"
  | innerName => "expected an inner class name"
  | classEnd => "expected `;` or `.` after class type"
  | emptyArguments => "empty type argument list"
  | trailingText => "trailing characters after signature"
  | formalAfterList => "type parameter after the parameter list"
  | innerWithoutOuter => "inner class type without an outer class"
  | argumentOutsideClass => "type argument outside of a class type"
  | formalsNotClosed => "type parameter list is never closed"
  | noReturnType => "method signature without a return type"

end Signature

/-- Why a descriptor or a signature is refused. -/
inductive FormatError where
  /-- The text is not a descriptor. -/
  | invalidDescriptor (descriptor : String)
  /-- The signature breaks its grammar at an offset. -/
  | invalidSignature (signature : String) (offset : Nat) (defect : Signature.Defect)
  /-- More structures are closed than were opened, or some are never closed. -/
  | unbalanced (signature : String) (offset : Option Nat)
deriving DecidableEq, Repr

namespace FormatError

/-- Whether the fault is one of balance and not of grammar. -/
def isUnbalanced : FormatError → Bool
  | unbalanced _ _ => true
  | invalidDescriptor _ => false
  | invalidSignature _ _ _ => false

/-- The refusal in words. -/
def message : FormatError → String
  | invalidDescriptor descriptor => "invalid descriptor: " ++ descriptor
  | invalidSignature signature offset defect =>
    "invalid signature `" ++ signature ++ "` at offset " ++ toString offset ++ ": " ++
      defect.message
  | unbalanced signature (some offset) =>
    "unbalanced signature levels in `" ++ signature ++ "` at offset " ++ toString offset
  | unbalanced signature none => "unbalanced signature levels in `" ++ signature ++ "`"

end FormatError

end RecordRepair
