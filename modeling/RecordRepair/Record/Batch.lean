import RecordRepair.Record.Repair

/-! # Repairing many classes

`repairAll` repairs the classes of a list, each on its own: nothing is shared but the registry, so
a failure leaves the other classes alone.  `Batch` holds the results in the order of the classes. -/

namespace RecordRepair

/-- The results of repairing the classes of a list, in order, and the classes afterwards. -/
structure Batch where
  results : List (Except Failure Outcome)
  classes : List ClassFile

namespace Batch

/-- Whether a result stands for a changed class. -/
def isChange : Except Failure Outcome → Bool
  | .ok outcome => !outcome.isUnchanged
  | .error _ => false

/-- Whether a result stands for a record; only records fail. -/
def isRecord : Except Failure Outcome → Bool
  | .ok outcome => outcome.isRecord
  | .error _ => true

/-- The failure that a result is, if it is one. -/
def failure? : Except Failure Outcome → Option Failure
  | .ok _ => none
  | .error failure => some failure

/-- The number of changed classes. -/
def changed (batch : Batch) : Nat := batch.results.countP isChange

/-- The number of records. -/
def records (batch : Batch) : Nat := batch.results.countP isRecord

/-- The failures, in the order of the classes. -/
def failures (batch : Batch) : List Failure := batch.results.filterMap failure?

/-- Whether nothing failed. -/
def isSuccess (batch : Batch) : Bool := batch.failures.isEmpty

end Batch

/-- Repairs each class of a list.  The classes may be repaired at the same time; what is taken for
granted of that is that each of them is repaired once, on its own, and that the results keep the
order of the classes. -/
def repairAll (settings : Settings) (lookup : Lookup) (classes : List ClassFile) : Batch where
  results := classes.map fun c => (repair settings lookup c).map Prod.fst
  classes := classes.map fun c => afterRepair c (repair settings lookup c)

end RecordRepair
