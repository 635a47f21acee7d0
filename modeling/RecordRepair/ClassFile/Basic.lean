import RecordRepair.ClassFile.Access

/-! # Class declarations

A class as its class file describes it, as far as the repair of records needs to know.  Signatures
are kept as text and are read on demand, since those of a damaged record may be partial or gone.

A class without a `Record` attribute (`components := none`) is kept apart from one whose attribute
lists nothing. -/

namespace RecordRepair

/-- The superclass of every record. -/
def recordBase : String := "java/lang/Record"

/-- The root of the class hierarchy. -/
def objectClass : String := "java/lang/Object"

/-- A field of a class. -/
structure Field where
  access : AccessFlags
  name : String
  descriptor : String
  signature : Option String := none
deriving DecidableEq, Repr

/-- A method of a class. -/
structure Method where
  access : AccessFlags
  name : String
  descriptor : String
  signature : Option String := none
deriving DecidableEq, Repr

/-- A component that the `Record` attribute of a class lists. -/
structure Component where
  name : String
  descriptor : String
  signature : Option String := none
deriving DecidableEq, Repr

/-- The component that a field stands for. -/
def Component.ofField (field : Field) : Component where
  name := field.name
  descriptor := field.descriptor
  signature := field.signature

/-- The declaration of a class. -/
structure ClassFile where
  name : String
  access : AccessFlags
  superclass : Option String
  interfaces : List String
  signature : Option String
  fields : List Field
  methods : List Method
  components : Option (List Component)
deriving DecidableEq, Repr

namespace ClassFile

/-- A class of which nothing but its name and its superclass is known. -/
def bare (name : String) (superclass : Option String) : ClassFile where
  name := name
  access := 0
  superclass := superclass
  interfaces := []
  signature := none
  fields := []
  methods := []
  components := none

/-- A class is a record if it directly extends the superclass of all records. -/
def isRecord (c : ClassFile) : Bool := c.superclass == some recordBase

/-- Whether the class is an interface. -/
def isInterface (c : ClassFile) : Bool := c.access.has .accInterface

/-- Whether at least one record component is listed. -/
def hasComponents (c : ClassFile) : Bool := c.components.any fun list => !list.isEmpty

end ClassFile

end RecordRepair
