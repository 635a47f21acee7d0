import RecordRepair.ClassFile.Basic
import Std.Data.HashMap

/-! # Registries of known classes

To write the bound of a type parameter one has to know whether the bound is an interface.

* `ClassInfo` is what has to be known of a class.
* `Lookup` is any service that answers for a class name.  "No such class" is an answer; a service
  that cannot answer is `Unavailable`.
* `Registry` is a table of classes in memory, and `Outage` puts it out of service for some names or
  for all. -/

namespace RecordRepair

/-- What has to be known of a class that bounds a type variable. -/
structure ClassInfo where
  isInterface : Bool
deriving DecidableEq, Repr

/-- The failure of a service that cannot tell whether a class exists. -/
structure Unavailable where
  reason : String
deriving DecidableEq, Repr

/-- The failure in words. -/
def Unavailable.message (failure : Unavailable) : String :=
  "class registry unavailable: " ++ failure.reason

/-- A service that answers for class names; a class that it does not know has no answer. -/
abbrev Lookup := String → Except Unavailable (Option ClassInfo)

/-- A table of classes by name. -/
structure Registry where
  classes : Std.HashMap String ClassInfo

namespace Registry

/-- A registry without classes. -/
def empty : Registry := ⟨∅⟩

/-- The number of known classes. -/
def size (registry : Registry) : Nat := registry.classes.size

/-- Whether a class is known. -/
def contains (registry : Registry) (name : String) : Bool := registry.classes.contains name

/-- What is known of a class. -/
def get? (registry : Registry) (name : String) : Option ClassInfo := registry.classes[name]?

/-- Enters a class, in place of what was known of it. -/
def insert (registry : Registry) (name : String) (info : ClassInfo) : Registry :=
  ⟨registry.classes.insert name info⟩

/-- Enters a declared class. -/
def insertClass (registry : Registry) (c : ClassFile) : Registry :=
  registry.insert c.name ⟨c.isInterface⟩

/-- Enters declared classes in order. -/
def insertAll (registry : Registry) (classes : List ClassFile) : Registry :=
  classes.foldl insertClass registry

/-- The registry of some declared classes. -/
def ofClasses (classes : List ClassFile) : Registry := empty.insertAll classes

/-- Classes of the standard library that bound type variables of records most often. -/
def standardClasses : List String := [
  "java/lang/Object",
  "java/lang/Number",
  "java/lang/String",
  "java/lang/Integer",
  "java/lang/Long",
  "java/lang/Double",
  "java/lang/Boolean",
  "java/lang/Enum",
  "java/lang/Record",
  "java/lang/Throwable",
  "java/lang/Exception",
  "java/lang/RuntimeException",
  "java/lang/Class",
  "java/util/Optional"]

/-- Interfaces of the standard library that bound type variables of records most often. -/
def standardInterfaces : List String := [
  "java/lang/Comparable",
  "java/lang/CharSequence",
  "java/lang/Iterable",
  "java/lang/Runnable",
  "java/lang/AutoCloseable",
  "java/io/Serializable",
  "java/util/Collection",
  "java/util/List",
  "java/util/Set",
  "java/util/Map",
  "java/util/Queue",
  "java/util/Deque",
  "java/util/Iterator",
  "java/util/function/Function",
  "java/util/function/BiFunction",
  "java/util/function/Supplier",
  "java/util/function/Consumer",
  "java/util/function/Predicate"]

/-- A registry of the most common classes and interfaces of the standard library. -/
def standard : Registry :=
  let classes := standardClasses.foldl (fun r name => r.insert name ⟨false⟩) empty
  standardInterfaces.foldl (fun r name => r.insert name ⟨true⟩) classes

/-- The registry as a service, which is always available. -/
def lookup (registry : Registry) : Lookup := fun name => .ok (registry.get? name)

end Registry

/-- A time out of service, for the listed names or else for all names. -/
structure Outage where
  reason : String
  names : Option (List String)
deriving DecidableEq, Repr

/-- Whether a name cannot be looked up. -/
def Outage.affects (outage : Outage) (name : String) : Bool :=
  outage.names.all fun names => names.contains name

/-- A service that fails for the names of an outage, known or not. -/
def Lookup.during (outage : Option Outage) (lookup : Lookup) : Lookup := fun name =>
  match outage with
  | some outage => if outage.affects name then .error ⟨outage.reason⟩ else lookup name
  | none => lookup name

end RecordRepair
