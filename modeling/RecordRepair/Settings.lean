/-! # Settings

Which repairs are made. -/

namespace RecordRepair

/-- Which repairs are made. -/
structure Settings where
  /-- Put back a list of components that is absent or empty. -/
  patchComponents : Bool := true
  /-- Write a class signature that declares every type variable in use. -/
  patchSignature : Bool := true
  /-- Make the fields that back components private again, together with `patchComponents`. -/
  restorePrivateFields : Bool := false
deriving DecidableEq, Repr

end RecordRepair
