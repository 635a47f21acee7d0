/-! # Access flags

Access flags are a word of 16 bits, shared by classes, fields and methods. -/

namespace RecordRepair

/-- The access flags of a class, a field or a method. -/
abbrev AccessFlags := UInt16

namespace AccessFlags

/-- Visible everywhere. -/
def accPublic : AccessFlags := 0x0001

/-- Visible in its class only. -/
def accPrivate : AccessFlags := 0x0002

/-- Visible in its package and in subclasses. -/
def accProtected : AccessFlags := 0x0004

/-- Belongs to the class and not to its instances. -/
def accStatic : AccessFlags := 0x0008

/-- Assigned once, or not to be extended. -/
def accFinal : AccessFlags := 0x0010

/-- An interface and not a class. -/
def accInterface : AccessFlags := 0x0200

/-- Whether every bit of `mask` is set. -/
def has (flags mask : AccessFlags) : Bool := flags &&& mask == mask

/-- Final and not static, whatever the visibility. -/
def isFinalInstance (flags : AccessFlags) : Bool := flags.has accFinal && !flags.has accStatic

/-- The same flags with any wider visibility replaced by `private`. -/
def makePrivate (flags : AccessFlags) : AccessFlags :=
  flags &&& ~~~(accPublic ||| accProtected) ||| accPrivate

end AccessFlags

end RecordRepair
