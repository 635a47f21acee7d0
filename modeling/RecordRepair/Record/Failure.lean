import RecordRepair.FormatError
import RecordRepair.Registry

/-! # Why a record cannot be repaired

`Site` names the part of a class that could not be read, and `Failure` the cause. -/

namespace RecordRepair

/-- A part of a class that has a signature or a descriptor. -/
inductive Site where
  | classSignature
  | component (name descriptor : String)
  | field (name descriptor : String)
  | method (name descriptor : String)
deriving DecidableEq, Repr

/-- The part in words. -/
def Site.description : Site → String
  | classSignature => "class signature"
  | component name descriptor => "record component " ++ name ++ ":" ++ descriptor
  | field name descriptor => "field " ++ name ++ ":" ++ descriptor
  | method name descriptor => "method " ++ name ++ descriptor

/-- Why a record is left as it is. -/
inductive Failure where
  /-- The signature of a part is refused. -/
  | malformedSignature (className : String) (site : Site) (cause : FormatError)
  /-- The descriptor of a part is refused. -/
  | invalidDescriptor (className : String) (site : Site) (cause : FormatError)
  /-- The registry knows no class of the name that bounds a type variable. -/
  | unresolvableBound (className typeVariable bound : String)
  /-- The registry cannot answer for the name that bounds a type variable. -/
  | registryUnavailable (className typeVariable bound : String) (cause : Unavailable)
deriving DecidableEq, Repr

namespace Failure

/-- The class that is left as it is. -/
def className : Failure → String
  | malformedSignature name _ _ => name
  | invalidDescriptor name _ _ => name
  | unresolvableBound name _ _ => name
  | registryUnavailable name _ _ _ => name

/-- The cause in words. -/
def message : Failure → String
  | malformedSignature name site cause =>
    "malformed signature on " ++ site.description ++ " of " ++ name ++ ": " ++ cause.message
  | invalidDescriptor name site cause =>
    "invalid descriptor on " ++ site.description ++ " of " ++ name ++ ": " ++ cause.message
  | unresolvableBound name typeVariable bound =>
    "unable to find information for type " ++ bound ++ " (bound of type variable " ++
      typeVariable ++ " in " ++ name ++ ")"
  | registryUnavailable name _ bound cause =>
    "class registry unavailable while resolving " ++ bound ++ " for " ++ name ++ ": " ++
      cause.message

end Failure

end RecordRepair
